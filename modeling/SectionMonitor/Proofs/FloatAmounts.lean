import SectionMonitor.Proofs.FloatOrder

/-!
# Sums and products of amounts

An amount is a positive number, the positive zero or the positive infinity (`IsAmount`). Amounts can
be added up: a sum of amounts is an amount and not below either of them (`le_add`).

Only rounding could spoil this. A sum is rounded by dropping digits below a suitable exponent. If a
number with the digits of a float does not exceed the exact sum, it does not exceed the rounded one
either (`round_spec`): its exponent is at most the one that is rounded to, and if it is that
one, the digits above it are kept. Whether they are rounded up does not matter for that.
-/

namespace SectionMonitor

namespace Binary64

open Float.Model
open Float.Model.UnpackedFloat (Sign Accuracy ExtendedMantissa)

/-! ## Shifting -/

/-- A number in units of the least positive one, if it has no smaller digits. -/
def magnitude (m : ℕ) (e : ℤ) : ℕ := m <<< (e + 1074).toNat

/-- Digits may be added below. -/
theorem magnitude_shiftLeft (m n : ℕ) {e : ℤ} (he : -1074 ≤ e) :
    magnitude (m <<< n) e = magnitude m (e + n) := by
  have hplaces : (e + n + 1074).toNat = n + (e + 1074).toNat := by omega
  rw [magnitude, magnitude, hplaces, Nat.shiftLeft_add]

theorem shiftLeft_pos {m : ℕ} (hm : 0 < m) (n : ℕ) : 0 < m <<< n := by
  rw [Nat.shiftLeft_eq]
  exact Nat.mul_pos hm (Nat.two_pow_pos n)

theorem magnitude_le_magnitude {m m' : ℕ} (h : m ≤ m') (e : ℤ) : magnitude m e ≤ magnitude m' e := by
  rw [magnitude, magnitude, Nat.shiftLeft_eq, Nat.shiftLeft_eq]
  exact Nat.mul_le_mul_right _ h

theorem mantissa_shiftRight (em : ExtendedMantissa) (n : ℕ) :
    (em >>> n).mantissa = em.mantissa >>> n := by
  induction n with
  | zero => rfl
  | succ n ih => exact congrArg (· / 2) ih

theorem mantissa_ofMantissaAndAccuracy (m : ℕ) (accuracy : Accuracy) :
    (ExtendedMantissa.ofMantissaAndAccuracy m accuracy).mantissa = m := by
  cases accuracy with
  | exact => rfl
  | inexact relative => cases relative <;> rfl

/-- Rounding takes the next lower or the next higher mantissa. -/
theorem roundedMantissa_mem (em : ExtendedMantissa) :
    em.roundedMantissa = em.mantissa ∨ em.roundedMantissa = em.mantissa + 1 := by
  rw [ExtendedMantissa.roundedMantissa]
  rcases em.accuracy with _ | relative
  · exact .inl rfl
  · cases relative with
    | lt => exact .inl rfl
    | gt => exact .inr rfl
    | eq =>
      rcases Nat.mod_two_eq_zero_or_one em.mantissa with h | h
      · exact .inl (congrArg (em.mantissa + ·) h)
      · exact .inr (congrArg (em.mantissa + ·) h)

/-- The exponent that a number is rounded to. -/
def roundedExponent (m : ℕ) (e : ℤ) : ℤ := max (m.log2 + 1 + e - 53) (-1074)

theorem targetExponent_eq_max (total : ℤ) :
    Format.binary64.targetExponent total = max (total - 53) (-1074) := by
  have hbits : Format.binary64.mantissaBits = 53 := by decide
  have hleast : Format.binary64.minExponent = -1074 := by decide
  rw [Format.targetExponent, hbits, hleast]
  rfl

theorem targetExponent_eq (m : ℕ) (e : ℤ) :
    Format.binary64.targetExponent (totalExponent m e) = roundedExponent m e :=
  targetExponent_eq_max _

/-- Enough digits are dropped, and no more than that unless the exponent is the least one. -/
theorem shiftRight_bounds {m : ℕ} {e : ℤ} (hm : 0 < m) {k : ℕ} (hk : e + k = roundedExponent m e) :
    m >>> k < 0x20000000000000 ∧ (0x10000000000000 ≤ m >>> k ∨ e + k = -1074) := by
  rw [roundedExponent] at hk
  rw [Nat.shiftRight_eq_div_pow]
  constructor
  · have hlt : m < 2 ^ (k + 53) := (Nat.log2_lt hm.ne').mp (by omega)
    rw [Nat.pow_add] at hlt
    exact Nat.div_lt_of_lt_mul hlt
  · by_cases hleast : e + k = -1074
    · exact .inr hleast
    · have hle : 2 ^ (k + 52) ≤ m := (Nat.le_log2 hm.ne').mp (by omega)
      rw [Nat.pow_add, Nat.mul_comm] at hle
      exact .inl ((Nat.le_div_iff_mul_le (Nat.two_pow_pos k)).mpr hle)

/-- A number with a mantissa that may be zero. -/
def ofMantissa (m : ℕ) (e : ℤ) : UnpackedFloat :=
  if h : m = 0 then .zero .positive else .finite .positive m e (Nat.pos_of_ne_zero h)

theorem ofMantissa_spec {m : ℕ} {e : ℤ} (hlt : m < 0x20000000000000) (he : -1074 ≤ e)
    (hlow : 0x10000000000000 ≤ m ∨ e = -1074) :
    Canonical (ofMantissa m e) ∧ word (ofMantissa m e) = min (finiteWord m e) infinityWord := by
  rw [ofMantissa]
  split_ifs with hzero
  · obtain rfl : e = -1074 := hlow.resolve_left (by omega)
    rw [hzero]
    exact ⟨trivial, rfl⟩
  · exact ⟨⟨hlt, he, hlow⟩, Nat.zero_add _⟩

/-- A number whose mantissa may have become too long by rounding up. -/
def carried (m : ℕ) (e : ℤ) : UnpackedFloat :=
  let shift := (roundedExponent m e - e).toNat
  ofMantissa (m >>> shift) (e + shift)

theorem carried_of_lt {m : ℕ} {e : ℤ} (hlt : m < 0x20000000000000) (he : -1074 ≤ e) :
    carried m e = ofMantissa m e := by
  have hshift : (roundedExponent m e - e).toNat = 0 := by
    rcases Nat.eq_zero_or_pos m with rfl | hm
    · rw [roundedExponent, Nat.log2_zero]
      omega
    · have hlog : m.log2 < 53 := (Nat.log2_lt hm.ne').mpr hlt
      rw [roundedExponent]
      omega
  rw [carried, hshift]
  exact congrArg (ofMantissa m) (Int.add_zero e)

theorem carried_overflow {e : ℤ} (he : -1074 ≤ e) :
    carried 0x20000000000000 e = ofMantissa 0x10000000000000 (e + 1) := by
  have hshift : (roundedExponent 0x20000000000000 e - e).toNat = 1 := by
    have hlog : Nat.log2 0x20000000000000 = 53 := by decide
    rw [roundedExponent, hlog]
    omega
  rw [carried, hshift]
  rfl

/-- A carry out of the mantissa goes into the exponent, as it does in a word. -/
theorem carried_spec {m : ℕ} {e : ℤ} (hle : m ≤ 0x20000000000000) (he : -1074 ≤ e)
    (hlow : 0x10000000000000 ≤ m ∨ e = -1074) :
    Canonical (carried m e) ∧ word (carried m e) = min (finiteWord m e) infinityWord := by
  rcases hle.lt_or_eq with hlt | rfl
  · rw [carried_of_lt hlt he]
    exact ofMantissa_spec hlt he hlow
  · have hword : finiteWord 0x20000000000000 e = finiteWord 0x10000000000000 (e + 1) := by
      rw [finiteWord, finiteWord]
      omega
    rw [carried_overflow he, hword]
    exact ofMantissa_spec (by decide) (by omega) (.inl le_rfl)

/-- Rounding drops digits first and carries afterwards. -/
theorem roundWithAccuracy_eq {m : ℕ} {e : ℤ} (accuracy : Accuracy) {k : ℕ}
    (hk : e + k = roundedExponent m e) :
    UnpackedFloat.roundWithAccuracy Format.binary64 .positive m e accuracy
      = carried (ExtendedMantissa.ofMantissaAndAccuracy m accuracy >>> k).roundedMantissa
        (e + k) := by
  have hshift : (roundedExponent m e - e).toNat = k := by omega
  simp only [UnpackedFloat.roundWithAccuracy, UnpackedFloat.shiftToTargetExponent,
    UnpackedFloat.shiftToExponent, hshift, targetExponent_eq, mantissa_shiftRight,
    mantissa_ofMantissaAndAccuracy, carried, ofMantissa]

theorem roundedMantissa_shiftRight_mem (m : ℕ) (accuracy : Accuracy) (k : ℕ) :
    (ExtendedMantissa.ofMantissaAndAccuracy m accuracy >>> k).roundedMantissa = m >>> k ∨
      (ExtendedMantissa.ofMantissaAndAccuracy m accuracy >>> k).roundedMantissa = m >>> k + 1 := by
  have hmem := roundedMantissa_mem (ExtendedMantissa.ofMantissaAndAccuracy m accuracy >>> k)
  rwa [mantissa_shiftRight, mantissa_ofMantissaAndAccuracy] at hmem

/-- **Rounding.** If digits are to be dropped, the mantissa becomes one of the two next to it. -/
theorem roundWithAccuracy_spec {m : ℕ} {e : ℤ} (hm : 0 < m) {k : ℕ}
    (hk : e + k = roundedExponent m e) :
    ∃ r, (r = m >>> k ∨ r = m >>> k + 1) ∧
      Canonical (UnpackedFloat.roundWithAccuracy Format.binary64 .positive m e .exact) ∧
      word (UnpackedFloat.roundWithAccuracy Format.binary64 .positive m e .exact)
        = min (finiteWord r (e + k)) infinityWord := by
  obtain ⟨hlt, hlow⟩ := shiftRight_bounds hm hk
  have hmem := roundedMantissa_shiftRight_mem m .exact k
  rw [roundWithAccuracy_eq .exact hk]
  exact ⟨_, hmem, carried_spec (by omega) (hk ▸ le_max_right _ _) (hlow.imp_left (by omega))⟩

/-- A float that does not exceed the exact number does not exceed the rounded one. -/
theorem finiteWord_le_rounded {m m' : ℕ} {e e' : ℤ} (hm : 0 < m) {k r : ℕ}
    (hk : e + k = roundedExponent m e) (he : -1074 ≤ e) (hr : m >>> k ≤ r)
    (hlt : m' < 0x20000000000000) (he' : -1074 ≤ e') (hlow' : 0x10000000000000 ≤ m' ∨ e' = -1074)
    (hle : magnitude m' e' ≤ magnitude m e) :
    finiteWord m' e' ≤ finiteWord r (e + k) := by
  obtain ⟨hupper, hlow⟩ := shiftRight_bounds hm hk
  rw [Nat.shiftRight_eq_div_pow] at hupper hlow hr
  have hbelow : m < 0x20000000000000 * 2 ^ k := Nat.lt_mul_of_div_lt hupper (Nat.two_pow_pos k)
  rw [magnitude, magnitude, Nat.shiftLeft_eq, Nat.shiftLeft_eq] at hle
  rcases lt_or_ge e' (e + k) with h | h
  · rw [finiteWord, finiteWord]
    omega
  · obtain ⟨j, hj⟩ : ∃ j : ℕ, e' = e + k + j := ⟨(e' - (e + k)).toNat, by omega⟩
    have hplace : (e' + 1074).toNat = k + j + (e + 1074).toNat := by omega
    have hkept : m' * 2 ^ (k + j) ≤ m := by
      rw [hplace, Nat.pow_add _ (k + j), ← Nat.mul_assoc] at hle
      exact Nat.le_of_mul_le_mul_right hle (Nat.two_pow_pos _)
    rcases Nat.eq_zero_or_pos j with rfl | hpos
    · have hdropped : m' ≤ m / 2 ^ k := (Nat.le_div_iff_mul_le (Nat.two_pow_pos k)).mpr hkept
      rw [finiteWord, finiteWord]
      omega
    · -- A float with a larger exponent has all its digits and exceeds what is rounded.
      have hfull : 0x10000000000000 * 2 ^ (k + 1) ≤ m' * 2 ^ (k + j) :=
        Nat.mul_le_mul (hlow'.resolve_right (by omega))
          (Nat.pow_le_pow_right (by decide) (by omega))
      rw [Nat.pow_succ] at hfull
      omega

theorem log2_shiftLeft {m : ℕ} (hm : 0 < m) (n : ℕ) : (m <<< n).log2 = m.log2 + n := by
  induction n with
  | zero => rfl
  | succ n ih =>
    rw [Nat.shiftLeft_succ, Nat.log2_two_mul (shiftLeft_pos hm n).ne', ih, Nat.add_assoc]

/-- **Rounding is monotone.** A float that does not exceed the exact number does not exceed the
rounded one. -/
theorem round_spec {m : ℕ} {e : ℤ} (hm : 0 < m) (he : -1074 ≤ e) :
    Canonical (UnpackedFloat.round Format.binary64 .positive m e) ∧
      ∀ m' e' hm', Canonical (.finite .positive m' e' hm') → magnitude m' e' ≤ magnitude m e →
        word (.finite .positive m' e' hm') ≤ word (UnpackedFloat.round Format.binary64 .positive m e) := by
  -- First digits are added below, so that there are some to be dropped.
  let added := (e - roundedExponent m e).toNat
  have hleast : -1074 ≤ roundedExponent m e := le_max_right _ _
  have hpos : 0 < m <<< added := shiftLeft_pos hm added
  have hexponent : roundedExponent (m <<< added) (e - added) = roundedExponent m e := by
    rw [roundedExponent, roundedExponent, log2_shiftLeft hm]
    omega
  have hmagnitude : magnitude (m <<< added) (e - added) = magnitude m e := by
    rw [magnitude_shiftLeft _ _ (by omega), Int.sub_add_cancel]
  have hround : UnpackedFloat.round Format.binary64 .positive m e
      = UnpackedFloat.roundWithAccuracy Format.binary64 .positive (m <<< added) (e - added)
        .exact := by
    rw [UnpackedFloat.round, targetExponent_eq]
    rfl
  obtain ⟨k, hk⟩ : ∃ k : ℕ, e - added + k = roundedExponent (m <<< added) (e - added) := by
    rw [hexponent]
    exact ⟨(roundedExponent m e - (e - added)).toNat, by omega⟩
  obtain ⟨r, hr, hcanonical, hword⟩ := roundWithAccuracy_spec hpos hk
  rw [hround]
  refine ⟨hcanonical, fun m' e' hm' ⟨hlt, he', hlow⟩ hle ↦ ?_⟩
  rw [hword, word, signWord, Nat.zero_add]
  refine min_le_min_right _ (finiteWord_le_rounded hpos hk (by omega) (by omega) hlt he' hlow ?_)
  rwa [hmagnitude]

/-! ## Unpacked amounts -/

/-- An unpacked amount has a positive sign. -/
inductive Amount : UnpackedFloat → Prop
  | zero : Amount (.zero .positive)
  | finite (m : ℕ) (e : ℤ) (hm : 0 < m) : Amount (.finite .positive m e hm)
  | infinity : Amount (.infinity .positive)

theorem Amount.word_le {f : UnpackedFloat} (h : Amount f) : word f ≤ infinityWord := by
  cases h with
  | zero => decide
  | finite m e hm => exact (Nat.zero_add _).trans_le (min_le_right ..)
  | infinity => exact le_rfl

theorem amount_of_word_le {f : UnpackedFloat} (h : word f ≤ infinityWord) : Amount f := by
  have hinf : infinityWord < 0x8000000000000000 := by decide
  have hnan : infinityWord < nanWord := by decide
  cases f with
  | notANumber => exact absurd h hnan.not_ge
  | zero s =>
    cases s with
    | positive => exact .zero
    | negative => exact absurd h hinf.not_ge
  | infinity s =>
    cases s with
    | positive => exact .infinity
    | negative => exact absurd h (by decide)
  | finite s m e hm =>
    cases s with
    | positive => exact .finite m e hm
    | negative =>
      rw [word, signWord] at h
      omega

/-- Also an amount that was not rounded is written as one. -/
theorem Amount.toNat_pack_le {f : UnpackedFloat} (h : Amount f) :
    (UnpackedFloat.pack Format.binary64 f).toNat ≤ infinityWord := by
  cases h with
  | zero => decide
  | infinity => exact le_rfl
  | finite m e hm =>
    have hinf : infinityWord = 0x7ff0000000000000 := rfl
    rw [UnpackedFloat.pack]
    simp only [exponentBias_eq]
    split_ifs with hover hnormal
    · exact (toNat_packComponents .positive (-1#11) 0).le
    · rw [toNat_packComponents, BitVec.toNat_ofNat, BitVec.toNat_ofNat, signWord]
      omega
    · rw [toNat_packComponents, BitVec.toNat_ofNat, BitVec.toNat_ofNat, signWord]
      omega

theorem amount_roundWithAccuracy (m : ℕ) (e : ℤ) (accuracy : Accuracy) :
    Amount (UnpackedFloat.roundWithAccuracy Format.binary64 .positive m e accuracy) := by
  rw [UnpackedFloat.roundWithAccuracy]
  dsimp only
  split_ifs with hzero
  · exact .zero
  · exact .finite ..

theorem amount_round (m : ℕ) (e : ℤ) :
    Amount (UnpackedFloat.round Format.binary64 .positive m e) :=
  amount_roundWithAccuracy ..

theorem normalize_natCast {n : ℕ} (hn : 0 < n) (e : ℤ) (s : Sign) :
    UnpackedFloat.normalize Format.binary64 n e s = UnpackedFloat.round Format.binary64 .positive n e := by
  have hpos : compare (n : ℤ) 0 = .gt := compare_gt_iff_gt.mpr (by omega)
  rw [UnpackedFloat.normalize, hpos]
  rfl

/-- **Sums.** A sum of amounts is an amount that is not below the first one. -/
theorem add_spec {f g : UnpackedFloat} (hf : Canonical f) (hg : Canonical g) (haf : Amount f)
    (hag : Amount g) :
    Canonical (UnpackedFloat.add Format.binary64 f g) ∧
      Amount (UnpackedFloat.add Format.binary64 f g) ∧
      word f ≤ word (UnpackedFloat.add Format.binary64 f g) := by
  cases haf with
  | infinity => cases hag <;> exact ⟨trivial, .infinity, le_rfl⟩
  | zero =>
    have hzero : word (.zero .positive) ≤ word g := Nat.zero_le _
    cases hag with
    | zero => exact ⟨trivial, .zero, le_rfl⟩
    | infinity => exact ⟨trivial, .infinity, hzero⟩
    | finite m' e' hm' => exact ⟨hg, .finite .., hzero⟩
  | finite m e hm =>
    cases hag with
    | zero => exact ⟨hf, .finite .., le_rfl⟩
    | infinity => exact ⟨trivial, .infinity, (Amount.finite m e hm).word_le⟩
    | finite m' e' hm' =>
      let digits := m <<< (e - min e e').toNat + m' <<< (e' - min e e').toNat
      have hdigits : 0 < digits := Nat.add_pos_left (shiftLeft_pos hm _) _
      have hleast : -1074 ≤ min e e' := le_min hf.2.1 hg.2.1
      have hsum : UnpackedFloat.add Format.binary64 (.finite .positive m e hm)
            (.finite .positive m' e' hm')
          = UnpackedFloat.round Format.binary64 .positive digits (min e e') :=
        normalize_natCast hdigits ..
      have hmagnitude : magnitude m e ≤ magnitude digits (min e e') := by
        have hexponent : min e e' + (e - min e e').toNat = e := by omega
        calc magnitude m e
            = magnitude (m <<< (e - min e e').toNat) (min e e') := by
              rw [magnitude_shiftLeft _ _ hleast, hexponent]
          _ ≤ magnitude digits (min e e') := magnitude_le_magnitude (Nat.le_add_right ..) _
      obtain ⟨hcanonical, hmonotone⟩ := round_spec hdigits hleast
      rw [hsum]
      exact ⟨hcanonical, amount_round .., hmonotone m e hm hf hmagnitude⟩

theorem Amount.add_zero {f : UnpackedFloat} (h : Amount f) :
    UnpackedFloat.add Format.binary64 f (.zero .positive) = f := by
  cases h <;> rfl

theorem eq_zero_of_word {f : UnpackedFloat} (h : word f = 0) : f = .zero .positive := by
  have hamount : Amount f := amount_of_word_le (h.trans_le (Nat.zero_le _))
  cases hamount with
  | zero => rfl
  | infinity => cases h
  | finite m e hm =>
    have hpos := finiteWord_pos hm e
    rw [word, signWord, infinityWord] at h
    omega

/-! ## Amounts -/

/-- An amount is positive or the positive zero, and may be infinite. -/
def IsAmount (x : Float) : Prop := Amount (unpacked x)

theorem isAmount_iff (x : Float) : IsAmount x ↔ x.toBits.toNat ≤ infinityWord := by
  rw [IsAmount, ← word_unpacked]
  exact ⟨Amount.word_le, amount_of_word_le⟩

theorem unpacked_zero : unpacked 0 = .zero .positive := by
  have hbits : (0 : Float).toBits.toNat = 0 := by decide +kernel
  exact eq_zero_of_word ((word_unpacked 0).trans hbits)

theorem isAmount_zero : IsAmount 0 := by
  rw [IsAmount, unpacked_zero]
  exact .zero

theorem add_eq (x y : Float) :
    x + y = .ofModel (.pack (UnpackedFloat.add Format.binary64 (unpacked x) (unpacked y))) := rfl

theorem mul_eq (x y : Float) :
    x * y = .ofModel (.pack (UnpackedFloat.mul Format.binary64 (unpacked x) (unpacked y))) := rfl

/-- What is written as an amount is read as one. -/
theorem isAmount_ofModel_pack {f : UnpackedFloat} (h : Amount f) :
    IsAmount (.ofModel (.pack f)) :=
  (isAmount_iff _).mpr h.toNat_pack_le

theorem toBits_ofModel_pack {f : UnpackedFloat} (h : Canonical f) :
    (Float.ofModel (.pack f)).toBits.toNat = word f :=
  toNat_pack h

/-- What has been read is written again. -/
theorem ofModel_pack_unpacked (x : Float) : .ofModel (.pack (unpacked x)) = x :=
  eq_of_toBits ((toBits_ofModel_pack (canonical_unpacked x).1).trans (word_unpacked x))

namespace IsAmount

variable {x y : Float}

theorem isNaN_eq_false (h : IsAmount x) : x.isNaN = false := by
  rw [isNaN_eq]
  cases hx : unpacked x with
  | notANumber =>
    rw [IsAmount, hx] at h
    cases h
  | zero _ => rfl
  | finite _ _ _ _ => rfl
  | infinity _ => rfl

/-- Amounts are in the order of their words. -/
theorem le_iff (hx : IsAmount x) (hy : IsAmount y) : x ≤ y ↔ word (unpacked x) ≤ word (unpacked y) := by
  have hlevel {z : Float} (hz : IsAmount z) : level (unpacked z) = word (unpacked z) := by
    have hlt : word (unpacked z) < 0x8000000000000000 := hz.word_le.trans_lt (by decide)
    rw [level_eq (canonical_unpacked z).2 hz.isNaN_eq_false, if_pos hlt]
  rw [Binary64.le_iff, hlevel hx, hlevel hy]
  simp only [hx.isNaN_eq_false, hy.isNaN_eq_false, true_and, Int.ofNat_le]

theorem le_refl (h : IsAmount x) : x ≤ x := (h.le_iff h).mpr le_rfl

theorem add (hx : IsAmount x) (hy : IsAmount y) : IsAmount (x + y) :=
  isAmount_ofModel_pack (add_spec (canonical_unpacked x).1 (canonical_unpacked y).1 hx hy).2.1

/-- **Adding up.** A sum is not below what was there before. -/
theorem le_add (hx : IsAmount x) (hy : IsAmount y) : x ≤ x + y := by
  obtain ⟨hcanonical, -, hle⟩ := add_spec (canonical_unpacked x).1 (canonical_unpacked y).1 hx hy
  rw [hx.le_iff (hx.add hy), word_unpacked (x + y)]
  exact hle.trans_eq (toBits_ofModel_pack hcanonical).symm

/-- Nothing can be added without a change, not even in the sign of a zero. -/
theorem add_zero (h : IsAmount x) : x + 0 = x := by
  rw [add_eq, unpacked_zero, Amount.add_zero h, ofModel_pack_unpacked]

end IsAmount

/-! ## Positive numbers -/

/-- An unpacked positive number. -/
inductive Positive : UnpackedFloat → Prop
  | finite (m : ℕ) (e : ℤ) (hm : 0 < m) : Positive (.finite .positive m e hm)
  | infinity : Positive (.infinity .positive)

theorem Positive.mul {f g : UnpackedFloat} (hf : Positive f) (hg : Positive g) :
    Amount (UnpackedFloat.mul Format.binary64 f g) := by
  cases hf with
  | infinity => cases hg <;> exact .infinity
  | finite m e hm =>
    cases hg with
    | infinity => exact .infinity
    | finite m' e' hm' => exact amount_roundWithAccuracy ..

/-- Infinity times zero is no number. -/
theorem Positive.mul_zero {f : UnpackedFloat} (h : Positive f) :
    UnpackedFloat.mul Format.binary64 f (.zero .positive)
      = if f.isInf then .notANumber else .zero .positive := by
  cases h <;> rfl

/-- Of all amounts only zero is not positive. -/
theorem Amount.positive {f : UnpackedFloat} (h : Amount f) (hword : 0 < word f) : Positive f := by
  cases h with
  | zero => exact absurd hword (lt_irrefl _)
  | finite m e hm => exact .finite m e hm
  | infinity => exact .infinity

variable {x y : Float}

theorem pos_iff (x : Float) : 0 < x ↔ Positive (unpacked x) := by
  have hzero : (0 : Float).isNaN = false := isAmount_zero.isNaN_eq_false
  rw [lt_iff, hzero, isNaN_eq, unpacked_zero, level]
  constructor
  · rintro ⟨-, hnan, hlevel⟩
    generalize unpacked x = f at hnan hlevel
    cases f with
    | notANumber => cases hnan
    | zero s => exact absurd hlevel (lt_irrefl _)
    | infinity s =>
      cases s with
      | positive => exact .infinity
      | negative => exact absurd hlevel (by decide)
    | finite s m e hm =>
      cases s with
      | positive => exact .finite m e hm
      | negative =>
        rw [level, Sign.apply] at hlevel
        omega
  · intro h
    generalize unpacked x = f at h
    cases h with
    | infinity => exact ⟨rfl, rfl, by decide⟩
    | finite m e hm => exact ⟨rfl, rfl, Int.natCast_pos.mpr (finiteWord_pos hm e)⟩

theorem not_pos_iff (x : Float) : ¬0 < x ↔ x ≤ 0 ∨ x.isNaN = true := by
  have hzero : (0 : Float).isNaN = false := isAmount_zero.isNaN_eq_false
  rw [lt_iff, le_iff, hzero]
  cases x.isNaN with
  | true => exact iff_of_true (fun h ↦ Bool.noConfusion h.2.1) (.inr rfl)
  | false => simp

/-- A product of positive numbers is an amount. -/
theorem isAmount_mul (hx : 0 < x) (hy : 0 < y) : IsAmount (x * y) :=
  isAmount_ofModel_pack (((pos_iff x).mp hx).mul ((pos_iff y).mp hy))

theorem isInf_eq (x : Float) : x.isInf = (unpacked x).isInf := rfl

theorem mul_zero_of_finite (hx : 0 < x) (hfinite : x.isInf = false) : x * 0 = 0 := by
  rw [isInf_eq] at hfinite
  rw [mul_eq, unpacked_zero, ((pos_iff x).mp hx).mul_zero, hfinite, if_neg Bool.false_ne_true,
    ← unpacked_zero, ofModel_pack_unpacked]

/-! ## What is no number -/

theorem isNaN_ofModel_pack : (Float.ofModel (.pack .notANumber)).isNaN = true := by decide +kernel

theorem isNaN_mul_zero (hx : 0 < x) (hinf : x.isInf = true) : (x * 0).isNaN = true := by
  rw [isInf_eq] at hinf
  rw [mul_eq, unpacked_zero, ((pos_iff x).mp hx).mul_zero, hinf, if_pos rfl]
  exact isNaN_ofModel_pack

/-- A sum is no number if what is added is none. -/
theorem isNaN_add (x : Float) (hy : y.isNaN = true) : (x + y).isNaN = true := by
  have hadd : UnpackedFloat.add Format.binary64 (unpacked x) (unpacked y) = .notANumber := by
    rw [(isNaN_iff y).mp hy]
    cases unpacked x <;> rfl
  rw [add_eq, hadd]
  exact isNaN_ofModel_pack

/-! ## Counts -/

theorem toFloat_zero : (0 : UInt64).toFloat = 0 := by decide +kernel

/-- However a count is rounded, it does not vanish. -/
theorem toFloat_pos {n : UInt64} (hn : n ≠ 0) : 0 < n.toFloat := by
  have hpos : 0 < n.toNat := Nat.pos_of_ne_zero fun h ↦ hn (UInt64.toNat_inj.mp h)
  have hround : n.toFloat
      = .ofModel (.pack (UnpackedFloat.round Format.binary64 .positive n.toNat 0)) := by
    rw [← normalize_natCast hpos 0 .positive]
    rfl
  have hamount : IsAmount n.toFloat := hround ▸ isAmount_ofModel_pack (amount_round ..)
  obtain ⟨hcanonical, hmonotone⟩ := round_spec hpos (e := 0) (by decide)
  have hone : magnitude 1 (-1074) ≤ magnitude n.toNat 0 := shiftLeft_pos hpos _
  have hword : 0 < word (unpacked n.toFloat) := by
    rw [word_unpacked, hround, toBits_ofModel_pack hcanonical]
    have hleast := hmonotone 1 (-1074) Nat.one_pos ⟨by decide, le_rfl, .inr rfl⟩ hone
    exact Nat.lt_of_lt_of_le (by decide) hleast
  exact (pos_iff _).mpr (hamount.positive hword)

end Binary64
end SectionMonitor
