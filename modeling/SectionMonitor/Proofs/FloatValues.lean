import Mathlib
import SectionMonitor.Proofs.FloatAmounts

/-!
# The numbers that floats denote

A finite float denotes a rational number: its mantissa, shifted by its exponent, with its sign
(`Binary64.value`). Amounts stand in the order of their words, and so do the numbers that they denote,
since the exponent decides in either of them (`finiteWord_le_iff`). Hence the comparisons of a program
are comparisons of rational numbers (`IsAmount.le_iff_value_le`).

The numbers that floats denote are among those that have 53 digits and no place below the least one
(`Representable`). These have gaps, which is why a float that does not reach a bound stays away from it
by a definite amount (`Representable.le_of_lt`).
-/

namespace SectionMonitor

namespace Binary64

open Float.Model
open Float.Model.UnpackedFloat (Sign)

/-! ## Denotation -/

/-- A number with a sign. -/
def signed : Sign → ℚ → ℚ
  | .positive, q => q
  | .negative, q => -q

/-- The rational number that an unpacked number denotes; what denotes none counts as zero. -/
def rational : UnpackedFloat → ℚ
  | .finite s m e _ => signed s (m * 2 ^ e)
  | .zero _ | .infinity _ | .notANumber => 0

/-- The rational number that a finite float denotes. -/
def value (x : Float) : ℚ := rational (unpacked x)

theorem abs_signed (s : Sign) (q : ℚ) : |signed s q| = |q| := by
  cases s with
  | positive => rfl
  | negative => exact abs_neg q

theorem two_zpow_pos (e : ℤ) : (0 : ℚ) < 2 ^ e := zpow_pos (by norm_num) e

theorem digits_nonneg (m : ℕ) (e : ℤ) : (0 : ℚ) ≤ m * 2 ^ e :=
  mul_nonneg (Nat.cast_nonneg m) (two_zpow_pos e).le

theorem abs_rational_finite {s : Sign} {m : ℕ} {e : ℤ} {hm : 0 < m} :
    |rational (.finite s m e hm)| = m * 2 ^ e := by
  rw [rational, abs_signed, abs_of_nonneg (digits_nonneg m e)]

theorem isFinite_eq (x : Float) : x.isFinite = (unpacked x).isFinite := rfl

/-! ## Digits -/

/-- The mantissa and the exponent of a float, with the mantissa zero for zero. -/
def Digits (m : ℕ) (e : ℤ) : Prop :=
  m < 0x20000000000000 ∧ -1074 ≤ e ∧ (0x10000000000000 ≤ m ∨ e = -1074)

section
variable {m m' : ℕ} {e e' : ℤ}

theorem eq_of_finiteWord_eq (h : Digits m e) (h' : Digits m' e')
    (heq : finiteWord m e = finiteWord m' e') : m = m' ∧ e = e' := by
  obtain ⟨hlt, hle, hlow⟩ := h
  obtain ⟨hlt', hle', hlow'⟩ := h'
  rw [finiteWord, finiteWord] at heq
  omega

theorem lt_of_finiteWord_lt (h : Digits m e) (h' : Digits m' e')
    (hlt : finiteWord m e < finiteWord m' e') : (m * 2 ^ e : ℚ) < m' * 2 ^ e' := by
  obtain ⟨hupper, hle, hlow⟩ := h
  obtain ⟨hupper', hle', hlow'⟩ := h'
  rw [finiteWord, finiteWord] at hlt
  rcases lt_trichotomy e e' with he | rfl | he
  · have hfull : 0x10000000000000 ≤ m' := by omega
    have hscale : (2 : ℚ) ^ (e + 1) ≤ 2 ^ e' := zpow_le_zpow_right₀ (by norm_num) he
    calc (m * 2 ^ e : ℚ)
        < 0x20000000000000 * 2 ^ e :=
          mul_lt_mul_of_pos_right (by exact_mod_cast hupper) (two_zpow_pos e)
      _ = 0x10000000000000 * 2 ^ (e + 1) := by
          rw [zpow_add_one₀ (by norm_num)]
          ring
      _ ≤ m' * 2 ^ e' :=
          mul_le_mul (by exact_mod_cast hfull) hscale (two_zpow_pos _).le (Nat.cast_nonneg m')
  · have hmantissa : m < m' := by omega
    exact mul_lt_mul_of_pos_right (by exact_mod_cast hmantissa) (two_zpow_pos e)
  · omega

/-- **The order.** Numbers are in the order of their words. -/
theorem finiteWord_le_iff (h : Digits m e) (h' : Digits m' e') :
    finiteWord m e ≤ finiteWord m' e' ↔ (m * 2 ^ e : ℚ) ≤ m' * 2 ^ e' := by
  rcases lt_trichotomy (finiteWord m e) (finiteWord m' e') with hlt | heq | hlt
  · exact iff_of_true hlt.le (lt_of_finiteWord_lt h h' hlt).le
  · obtain ⟨rfl, rfl⟩ := eq_of_finiteWord_eq h h' heq
    exact iff_of_true le_rfl le_rfl
  · exact iff_of_false hlt.not_ge (lt_of_finiteWord_lt h' h hlt).not_ge

end

/-- A finite amount has a mantissa and an exponent, and zero has them too. -/
theorem exists_digits {f : UnpackedFloat} (hf : Canonical f) (hbounded : Bounded f) (h : Amount f)
    (hfinite : f.isFinite = true) :
    ∃ m e, Digits m e ∧ word f = finiteWord m e ∧ rational f = m * 2 ^ e := by
  cases h with
  | infinity => cases hfinite
  | zero => exact ⟨0, -1074, ⟨by decide, le_rfl, .inr rfl⟩, rfl, by rw [rational]; simp⟩
  | finite m e hm =>
    rw [Bounded] at hbounded
    refine ⟨m, e, hf, ?_, rfl⟩
    rw [word, signWord, Nat.zero_add, Nat.min_eq_left hbounded.le]

/-- A number that is not larger than one that fits into a word fits into a word, too. -/
theorem bounded_of_abs_le {f g : UnpackedFloat} (hf : Canonical f) (hg : Canonical g)
    (hbounded : Bounded g) (hle : |rational f| ≤ |rational g|) : Bounded f := by
  cases f with
  | notANumber => trivial
  | zero s => trivial
  | infinity s => trivial
  | finite s m e hm =>
    rw [abs_rational_finite] at hle
    cases g with
    | finite s' m' e' hm' =>
      rw [abs_rational_finite] at hle
      exact ((finiteWord_le_iff hf hg).mpr hle).trans_lt hbounded
    | _ =>
      have hpos : (0 : ℚ) < m * 2 ^ e := mul_pos (Nat.cast_pos.mpr hm) (two_zpow_pos e)
      rw [rational, abs_zero] at hle
      exact absurd hle hpos.not_ge

/-! ## Writing and reading -/

/-- What is written is read again. -/
theorem unpacked_ofModel_pack {f : UnpackedFloat} (hf : Canonical f) (hbounded : Bounded f) :
    unpacked (.ofModel (.pack f)) = f := by
  cases f with
  | notANumber => rfl
  | zero s => cases s <;> rfl
  | infinity s => cases s <;> rfl
  | finite s m e hm =>
    have hword := (word_unpacked _).trans (toBits_ofModel_pack hf)
    obtain ⟨hcanonical, hread⟩ := canonical_unpacked (.ofModel (.pack (.finite s m e hm)))
    have hpos := finiteWord_pos hm e
    have hinf : infinityWord = 0x7ff0000000000000 := rfl
    rw [Bounded] at hbounded
    rw [word, Nat.min_eq_left hbounded.le] at hword
    generalize unpacked _ = g at *
    cases g with
    | notANumber =>
      rw [word, nanWord] at hword
      cases s <;> simp only [signWord] at hword <;> omega
    | zero s' =>
      rw [word] at hword
      cases s <;> cases s' <;> simp only [signWord] at hword <;> omega
    | infinity s' =>
      rw [word] at hword
      cases s <;> cases s' <;> simp only [signWord] at hword <;> omega
    | finite s' m' e' hm' =>
      have hpos' := finiteWord_pos hm' e'
      rw [Bounded] at hread
      rw [word, Nat.min_eq_left hread.le] at hword
      obtain ⟨rfl, heq⟩ : s' = s ∧ finiteWord m' e' = finiteWord m e := by
        cases s <;> cases s' <;> simp only [signWord] at hword <;> grind
      obtain ⟨rfl, rfl⟩ := eq_of_finiteWord_eq hcanonical hf heq
      rfl

/-! ## Magnitudes -/

theorem unpacked_abs (x : Float) : unpacked x.abs = (unpacked x).abs := by
  obtain ⟨hcanonical, hbounded⟩ := canonical_unpacked x
  change unpacked (.ofModel (.pack (unpacked x).abs)) = _
  refine unpacked_ofModel_pack ?_ ?_
  · cases h : unpacked x with
    | finite s m e hm =>
      rw [h] at hcanonical
      exact hcanonical
    | _ => trivial
  · cases h : unpacked x with
    | finite s m e hm =>
      rw [h] at hbounded
      exact hbounded
    | _ => trivial

theorem value_abs (x : Float) : value x.abs = |value x| := by
  rw [value, value, unpacked_abs]
  cases unpacked x with
  | finite s m e hm => exact abs_rational_finite.symm
  | _ => exact abs_zero.symm

theorem isFinite_abs (x : Float) : x.abs.isFinite = x.isFinite := by
  rw [isFinite_eq, isFinite_eq, unpacked_abs]
  cases unpacked x <;> rfl

theorem isAmount_abs {x : Float} (h : x.isFinite = true) : IsAmount x.abs := by
  rw [isFinite_eq] at h
  rw [IsAmount, unpacked_abs]
  cases hx : unpacked x with
  | finite s m e hm => exact .finite m e hm
  | zero s => exact .zero
  | infinity s => exact .infinity
  | notANumber =>
    rw [hx] at h
    cases h

/-- **Comparisons** of finite amounts are comparisons of what they denote. -/
theorem IsAmount.le_iff_value_le {x y : Float} (hx : IsAmount x) (hy : IsAmount y)
    (hxfinite : x.isFinite = true) (hyfinite : y.isFinite = true) : x ≤ y ↔ value x ≤ value y := by
  obtain ⟨hcx, hbx⟩ := canonical_unpacked x
  obtain ⟨hcy, hby⟩ := canonical_unpacked y
  obtain ⟨m, e, hdigits, hword, hvalue⟩ := exists_digits hcx hbx hx hxfinite
  obtain ⟨m', e', hdigits', hword', hvalue'⟩ := exists_digits hcy hby hy hyfinite
  rw [hx.le_iff hy, hword, hword', finiteWord_le_iff hdigits hdigits', value, value, hvalue, hvalue']

/-! ## Numbers with few digits -/

/-- The number has at most 53 digits, and the last one has a place that floats have. -/
def Representable (q : ℚ) : Prop :=
  ∃ k e : ℤ, |k| < 0x20000000000000 ∧ -1074 ≤ e ∧ q = k * 2 ^ e

namespace Representable

variable {q : ℚ}

theorem neg (h : Representable q) : Representable (-q) := by
  obtain ⟨k, e, hk, he, rfl⟩ := h
  exact ⟨-k, e, (abs_neg k).trans_lt hk, he, by rw [Int.cast_neg, neg_mul]⟩

theorem intCast {k : ℤ} (hk : |k| < 0x20000000000000) : Representable k :=
  ⟨k, 0, hk, by decide, by rw [zpow_zero, mul_one]⟩

theorem zero : Representable 0 := by exact_mod_cast intCast (k := 0) (by decide)

/-- A number with a last place that is not below a given one is a multiple of it. -/
theorem exists_multiple {k e g : ℤ} (h : g ≤ e) : ∃ j : ℤ, (k * 2 ^ e : ℚ) = j * 2 ^ g := by
  obtain ⟨n, rfl⟩ : ∃ n : ℕ, e = g + n := ⟨(e - g).toNat, by omega⟩
  refine ⟨k * 2 ^ n, ?_⟩
  rw [zpow_add₀ (by norm_num), zpow_natCast]
  push_cast
  ring

/-- A number with a last place below a given one is not as large as if it had a digit more. -/
theorem lt_of_place_lt {k e g : ℤ} (hk : |k| < 0x20000000000000) (h : e < g) :
    (k * 2 ^ e : ℚ) < 0x10000000000000 * 2 ^ g := by
  have hscale : (2 : ℚ) ^ (e + 1) ≤ 2 ^ g := zpow_le_zpow_right₀ (by norm_num) h
  calc (k * 2 ^ e : ℚ)
      < 0x20000000000000 * 2 ^ e :=
        mul_lt_mul_of_pos_right (by exact_mod_cast (le_abs_self k).trans_lt hk) (two_zpow_pos e)
    _ = 0x10000000000000 * 2 ^ (e + 1) := by
        rw [zpow_add_one₀ (by norm_num)]
        ring
    _ ≤ 0x10000000000000 * 2 ^ g := mul_le_mul_of_nonneg_left hscale (by norm_num)

/-- **Gaps.** Below a multiple of a place the next number is at least this place away, if the multiple
has more than 52 digits. -/
theorem le_of_lt (h : Representable q) {n g : ℤ} (hn : 0x10000000000000 < n)
    (hlt : q < n * 2 ^ g) : q ≤ (n - 1) * 2 ^ g := by
  obtain ⟨k, e, hk, -, rfl⟩ := h
  rcases le_or_gt g e with hge | hlt'
  · obtain ⟨j, hj⟩ := exists_multiple (k := k) hge
    rw [hj] at hlt ⊢
    have hcount : j < n := by exact_mod_cast lt_of_mul_lt_mul_right hlt (two_zpow_pos g).le
    refine mul_le_mul_of_nonneg_right ?_ (two_zpow_pos g).le
    exact_mod_cast Int.le_sub_one_of_lt hcount
  · refine (lt_of_place_lt hk hlt').le.trans (mul_le_mul_of_nonneg_right ?_ (two_zpow_pos g).le)
    exact_mod_cast Int.le_sub_one_of_lt hn

end Representable

theorem representable_rational {f : UnpackedFloat} (hf : Canonical f) :
    Representable (rational f) := by
  cases f with
  | finite s m e hm =>
    have hmantissa : |(m : ℤ)| < 0x20000000000000 := by
      rw [Nat.abs_cast]
      exact_mod_cast hf.1
    have hpositive : Representable (m * 2 ^ e) := ⟨m, e, hmantissa, hf.2.1, by push_cast; rfl⟩
    cases s with
    | positive => exact hpositive
    | negative => exact hpositive.neg
  | _ => exact .zero

theorem representable_value (x : Float) : Representable (value x) :=
  representable_rational (canonical_unpacked x).1

end Binary64
end SectionMonitor
