import Mathlib
import SectionMonitor.Summary.Statistics

/-!
# The order of floating-point numbers

A floating-point number is a word of 64 bits. Arithmetic reads it as a sign with a mantissa and an
exponent, and writes its results as words again. `word` says which word an unpacked number has: the
exponent stands above the mantissa, and the sign above both. So the numbers of one sign are in the
order of their words, and numbers of different signs are told apart by the signs (`compare_eq`).

Numbers are compared without regard to the sign of a zero, and what is no number is not compared at
all (`lt_iff`, `le_iff`). The total order mends both: the negative zero comes before the positive
one, and what is no number comes last (`orderKey_le_iff`).
-/

namespace SectionMonitor

namespace Binary64

open Float.Model
open Float.Model.UnpackedFloat (Sign unpackMantissa unpackExponent packComponents)

/-! ## Words of unpacked numbers -/

/-- The word of the positive infinity: all bits of the exponent are set. -/
def infinityWord : ℕ := 0x7ff0000000000000

/-- The word of what is no number. -/
def nanWord : ℕ := 0x7ff8000000000000

/-- The share of the sign in a word. -/
def signWord : Sign → ℕ
  | .negative => 0x8000000000000000
  | .positive => 0

/-- The share of exponent and mantissa. The leading bit of the mantissa carries into the exponent,
which therefore begins with one; without a leading bit it is zero. -/
def finiteWord (m : ℕ) (e : ℤ) : ℕ := (e + 1074).toNat * 0x10000000000000 + m

/-- The word of an unpacked number. What is too large becomes infinite. -/
def word : UnpackedFloat → ℕ
  | .zero s => signWord s
  | .finite s m e _ => signWord s + min (finiteWord m e) infinityWord
  | .infinity s => signWord s + infinityWord
  | .notANumber => nanWord

/-- The mantissa has at most 53 bits, and no fewer unless the exponent is the least one. -/
def Canonical : UnpackedFloat → Prop
  | .finite _ m e _ => m < 0x20000000000000 ∧ -1074 ≤ e ∧ (0x10000000000000 ≤ m ∨ e = -1074)
  | _ => True

/-- The number is not too large for a word. -/
def Bounded : UnpackedFloat → Prop
  | .finite _ m e _ => finiteWord m e < infinityWord
  | _ => True

theorem finiteWord_pos {m : ℕ} (hm : 0 < m) (e : ℤ) : 0 < finiteWord m e :=
  Nat.lt_of_lt_of_le hm (Nat.le_add_left ..)

/-! ## Packing -/

theorem toNat_packComponents (s : Sign) (e : BitVec 11) (m : BitVec 52) :
    (packComponents Format.binary64 s e m).toNat
      = signWord s + e.toNat * 0x10000000000000 + m.toNat := by
  have hsign : signWord s = s.toBitVec.toNat * 0x8000000000000000 := by cases s <;> rfl
  rw [hsign, packComponents, BitVec.toNat_append, BitVec.toNat_append,
    ← Nat.shiftLeft_add_eq_or_of_lt m.isLt, ← Nat.shiftLeft_add_eq_or_of_lt e.isLt]
  simp only [Nat.shiftLeft_eq]
  omega

/-- A mantissa has all its bits if it reaches the leading one. -/
theorem log2_eq_iff {m : ℕ} (hm : 0 < m) (hlt : m < 0x20000000000000) :
    m.log2 + 1 = Format.binary64.mantissaBits ↔ 0x10000000000000 ≤ m := by
  have hbits : Format.binary64.mantissaBits = 53 := by decide
  have hupper : m.log2 < 53 := (Nat.log2_lt hm.ne').mpr hlt
  have hlower : 52 ≤ m.log2 ↔ 0x10000000000000 ≤ m := Nat.le_log2 hm.ne'
  omega

theorem exponentBias_eq : (Format.binary64.exponentBias : ℤ) = 1023 := by decide

/-- **Packing.** A number is written as its word. -/
theorem toNat_pack {f : UnpackedFloat} (hf : Canonical f) :
    (UnpackedFloat.pack Format.binary64 f).toNat = word f := by
  cases f with
  | infinity s => cases s <;> rfl
  | notANumber => rfl
  | zero s => cases s <;> rfl
  | finite s m e hm =>
    obtain ⟨hlt, he, hlow⟩ := hf
    rw [UnpackedFloat.pack]
    simp only [exponentBias_eq, log2_eq_iff hm hlt]
    split_ifs with hover hnormal
    · have hword : infinityWord ≤ finiteWord m e := by
        rw [infinityWord, finiteWord]
        omega
      rw [word, Nat.min_eq_right hword]
      exact toNat_packComponents s (-1#11) 0
    · rw [toNat_packComponents, BitVec.toNat_ofNat, BitVec.toNat_ofNat, word, infinityWord,
        finiteWord]
      omega
    · rw [toNat_packComponents, BitVec.toNat_ofNat, BitVec.toNat_ofNat, word, infinityWord,
        finiteWord]
      omega

/-! ## Unpacking -/

/-- A number with a leading bit has the full mantissa. -/
theorem toNat_one_append (m : BitVec 52) : (1#1 ++ m).toNat = 0x10000000000000 + m.toNat := by
  rw [BitVec.toNat_append, ← Nat.shiftLeft_add_eq_or_of_lt m.isLt]
  rfl

/-- What a float is to arithmetic. -/
def unpacked (x : Float) : UnpackedFloat := x.toModel.unpack

theorem canonical_unpacked (x : Float) : Canonical (unpacked x) ∧ Bounded (unpacked x) := by
  rw [unpacked, Float.Model.unpack, UnpackedFloat.unpack]
  dsimp only
  have hm : (@unpackMantissa Format.binary64 x.toModel.toBits.toBitVec).toNat < 0x10000000000000 :=
    BitVec.isLt _
  have he : (@unpackExponent Format.binary64 x.toModel.toBits.toBitVec).toNat < 2048 :=
    BitVec.isLt _
  split_ifs with hlast hzero hfirst hzero
  · exact ⟨trivial, trivial⟩
  · exact ⟨trivial, trivial⟩
  · exact ⟨trivial, trivial⟩
  · have hexponent : ((@unpackExponent Format.binary64 x.toModel.toBits.toBitVec).toNat : ℤ)
        - (Format.binary64.exponentBias + (52 : ℕ)) + 1 = -1074 := by
      rw [exponentBias_eq, hfirst]
      rfl
    rw [Canonical, Bounded, hexponent, finiteWord, infinityWord]
    omega
  · have hne : (@unpackExponent Format.binary64 x.toModel.toBits.toBitVec).toNat ≠ 0 :=
      fun h ↦ hfirst (BitVec.eq_of_toNat_eq h)
    have hne' : (@unpackExponent Format.binary64 x.toModel.toBits.toBitVec).toNat ≠ 2047 :=
      fun h ↦ hlast (BitVec.eq_of_toNat_eq h)
    rw [Canonical, Bounded, toNat_one_append, exponentBias_eq, finiteWord, infinityWord]
    omega

/-- **Unpacking.** The unpacked number has the word that it was read from. -/
theorem word_unpacked (x : Float) : word (unpacked x) = x.toBits.toNat := by
  rw [← toNat_pack (canonical_unpacked x).1, unpacked, Float.Model.unpack,
    UnpackedFloat.pack_unpack_of_valid x.toModel.valid]
  rfl

/-! ## Comparing -/

/-- Where a number stands among the others: its word with the sign of the number. -/
def level : UnpackedFloat → ℤ
  | .finite s m e _ => s.apply (finiteWord m e)
  | .infinity s => s.apply infinityWord
  | .zero _ => 0
  | .notANumber => 0

/-- Exponents decide before mantissas do. -/
theorem compare_finite {s s' : Sign} {m m' : ℕ} {e e' : ℤ} {hm : 0 < m} {hm' : 0 < m'}
    (hf : Canonical (.finite s m e hm)) (hg : Canonical (.finite s' m' e' hm')) :
    (compare e e').then (compare m m') = compare (finiteWord m e : ℤ) (finiteWord m' e') := by
  obtain ⟨hlt, he, hlow⟩ := hf
  obtain ⟨hlt', he', hlow'⟩ := hg
  rw [finiteWord, finiteWord]
  rcases lt_trichotomy e e' with h | rfl | h
  · rw [compare_lt_iff_lt.mpr h, Ordering.lt_then, eq_comm, compare_lt_iff_lt]
    omega
  · rw [compare_eq_iff_eq.mpr rfl, Ordering.eq_then]
    rcases lt_trichotomy m m' with h | rfl | h
    · rw [compare_lt_iff_lt.mpr h, eq_comm, compare_lt_iff_lt]
      omega
    · rw [compare_eq_iff_eq.mpr rfl, compare_eq_iff_eq.mpr rfl]
    · rw [compare_gt_iff_gt.mpr h, eq_comm, compare_gt_iff_gt]
      omega
  · rw [compare_gt_iff_gt.mpr h, Ordering.gt_then, eq_comm, compare_gt_iff_gt]
    omega

theorem compare_neg (a b : ℤ) : compare (-a) (-b) = compare b a := by
  rw [Int.compare_eq_ite_lt, Int.compare_eq_ite_lt]
  simp only [Int.neg_lt_neg_iff]

theorem some_compare_of_lt {a b : ℤ} (h : a < b) : some Ordering.lt = some (compare a b) :=
  congrArg some (compare_lt_iff_lt.mpr h).symm

theorem some_compare_of_gt {a b : ℤ} (h : b < a) : some Ordering.gt = some (compare a b) :=
  congrArg some (compare_gt_iff_gt.mpr h).symm

/-- **Comparing.** Numbers compare as they stand. -/
theorem compare_eq {f g : UnpackedFloat} (hf : Canonical f) (hf' : Bounded f) (hg : Canonical g)
    (hg' : Bounded g) (hnf : f.isNaN = false) (hng : g.isNaN = false) :
    f.compare g = some (compare (level f) (level g)) := by
  have hinf : 0 < infinityWord := by decide
  cases f with
  | notANumber => cases hnf
  | infinity s =>
    cases g with
    | notANumber => cases hng
    | infinity s' => cases s <;> cases s' <;> decide
    | zero s' => cases s <;> cases s' <;> decide
    | finite s' m' e' hm' =>
      rw [Bounded] at hg'
      rw [level, level]
      cases s <;> cases s' <;> rw [Sign.apply, Sign.apply]
      · exact some_compare_of_lt (by omega)
      · exact some_compare_of_lt (by omega)
      · exact some_compare_of_gt (by omega)
      · exact some_compare_of_gt (by omega)
  | zero s =>
    cases g with
    | notANumber => cases hng
    | infinity s' => cases s <;> cases s' <;> decide
    | zero s' => rfl
    | finite s' m' e' hm' =>
      have hpos' := finiteWord_pos hm' e'
      rw [level, level]
      cases s' <;> rw [Sign.apply]
      · exact some_compare_of_gt (by omega)
      · exact some_compare_of_lt (by omega)
  | finite s m e hm =>
    have hpos := finiteWord_pos hm e
    cases g with
    | notANumber => cases hng
    | infinity s' =>
      rw [Bounded] at hf'
      rw [level, level]
      cases s <;> cases s' <;> rw [Sign.apply, Sign.apply]
      · exact some_compare_of_gt (by omega)
      · exact some_compare_of_lt (by omega)
      · exact some_compare_of_gt (by omega)
      · exact some_compare_of_lt (by omega)
    | zero s' =>
      rw [level, level]
      cases s <;> rw [Sign.apply]
      · exact some_compare_of_lt (by omega)
      · exact some_compare_of_gt (by omega)
    | finite s' m' e' hm' =>
      have hpos' := finiteWord_pos hm' e'
      have hcompare := compare_finite hf hg
      rw [level, level]
      cases s <;> cases s' <;> rw [Sign.apply, Sign.apply]
      · rw [compare_neg, ← Int.compare_swap, ← hcompare]
        rfl
      · exact some_compare_of_lt (by omega)
      · exact some_compare_of_gt (by omega)
      · rw [← hcompare]
        rfl

/-! ## Floats -/

theorem isNaN_eq (x : Float) : x.isNaN = (unpacked x).isNaN := rfl

theorem isNaN_iff (x : Float) : x.isNaN = true ↔ unpacked x = .notANumber :=
  UnpackedFloat.isNaN_iff

theorem eq_of_toBits {a b : Float} (h : a.toBits.toNat = b.toBits.toNat) : a = b :=
  Float.toBits_inj.mp (UInt64.toNat_inj.mp h)

/-- What is no number is not compared. -/
theorem compare_of_isNaN {f g : UnpackedFloat} (h : f = .notANumber ∨ g = .notANumber) :
    f.compare g = none := by
  rcases h with rfl | rfl
  · rfl
  · cases f <;> rfl

theorem compare_cases (a b : Float) :
    (unpacked a).compare (unpacked b) = none ∧ ¬(a.isNaN = false ∧ b.isNaN = false) ∨
      (unpacked a).compare (unpacked b) = some (compare (level (unpacked a)) (level (unpacked b))) ∧
        a.isNaN = false ∧ b.isNaN = false := by
  by_cases hnan : a.isNaN = false ∧ b.isNaN = false
  · obtain ⟨hca, hba⟩ := canonical_unpacked a
    obtain ⟨hcb, hbb⟩ := canonical_unpacked b
    exact .inr ⟨compare_eq hca hba hcb hbb hnan.1 hnan.2, hnan⟩
  · refine .inl ⟨compare_of_isNaN ?_, hnan⟩
    rwa [← isNaN_iff, ← isNaN_iff, ← Bool.not_eq_false, ← Bool.not_eq_false, ← not_and_or]

theorem lt_iff (a b : Float) :
    a < b ↔ a.isNaN = false ∧ b.isNaN = false ∧ level (unpacked a) < level (unpacked b) := by
  have hlt : a < b ↔ (unpacked a).compare (unpacked b) = some .lt := by
    change decide (((unpacked a).compare (unpacked b) == some .lt) = true) = true ↔ _
    rw [decide_eq_true_iff, beq_iff_eq]
  rw [hlt]
  obtain ⟨h, hnan⟩ | ⟨h, ha, hb⟩ := compare_cases a b
  · rw [h]
    exact iff_of_false (Option.some_ne_none _).symm fun hlevel ↦ hnan ⟨hlevel.1, hlevel.2.1⟩
  · rw [h, Option.some_inj, compare_lt_iff_lt]
    simp only [ha, hb, true_and]

theorem le_iff (a b : Float) :
    a ≤ b ↔ a.isNaN = false ∧ b.isNaN = false ∧ level (unpacked a) ≤ level (unpacked b) := by
  have hle : a ≤ b ↔ ((unpacked a).compare (unpacked b)).any (·.isLE) = true := by
    change decide (((unpacked a).compare (unpacked b)).any (·.isLE) = true) = true ↔ _
    rw [decide_eq_true_iff]
  rw [hle]
  obtain ⟨h, hnan⟩ | ⟨h, ha, hb⟩ := compare_cases a b
  · rw [h]
    exact iff_of_false Bool.false_ne_true fun hlevel ↦ hnan ⟨hlevel.1, hlevel.2.1⟩
  · rw [h, Option.any_some, Int.isLE_compare]
    simp only [ha, hb, true_and]

/-! ## Rules of the order -/

protected theorem le_refl {a : Float} (h : a.isNaN = false) : a ≤ a :=
  (le_iff a a).mpr ⟨h, h, le_rfl⟩

protected theorem le_trans {a b c : Float} (hab : a ≤ b) (hbc : b ≤ c) : a ≤ c := by
  rw [le_iff] at hab hbc ⊢
  exact ⟨hab.1, hbc.2.1, hab.2.2.trans hbc.2.2⟩

protected theorem le_of_lt {a b : Float} (h : a < b) : a ≤ b := by
  rw [lt_iff] at h
  rw [le_iff]
  exact ⟨h.1, h.2.1, h.2.2.le⟩

/-- Of two numbers that are none of them missing, one is not below the other. -/
protected theorem le_of_not_lt {a b : Float} (ha : a.isNaN = false) (hb : b.isNaN = false)
    (h : ¬a < b) : b ≤ a := by
  rw [lt_iff] at h
  rw [le_iff]
  exact ⟨hb, ha, not_lt.mp fun hlevel ↦ h ⟨ha, hb, hlevel⟩⟩

/-- Numbers that stand at the same place are equal, as the two zeros are. -/
theorem beq_of_le_of_le {a b : Float} (hab : a ≤ b) (hba : b ≤ a) : (a == b) = true := by
  have hbeq : (a == b) = true ↔ (unpacked a).compare (unpacked b) = some .eq := by
    change ((unpacked a).compare (unpacked b) == some .eq) = true ↔ _
    rw [beq_iff_eq]
  rw [le_iff] at hab hba
  obtain ⟨-, hnan⟩ | ⟨hcompare, -⟩ := compare_cases a b
  · exact absurd ⟨hab.1, hab.2.1⟩ hnan
  · rw [hbeq, hcompare, Option.some_inj, compare_eq_iff_eq]
    exact le_antisymm hab.2.2 hba.2.2

/-! ## The total order -/

/-- The words of numbers do not reach the word of what is no number, on either side of the signs. -/
theorem word_le {f : UnpackedFloat} (hf : Bounded f) (hnan : f.isNaN = false) :
    word f ≤ infinityWord ∨
      0x8000000000000000 ≤ word f ∧ word f ≤ 0x8000000000000000 + infinityWord := by
  cases f with
  | notANumber => cases hnan
  | zero s => cases s <;> decide
  | infinity s => cases s <;> decide
  | finite s m e hm =>
    rw [Bounded] at hf
    rw [word]
    cases s <;> rw [signWord] <;> omega

/-- A number stands where its word says, taken from the side of its sign. -/
theorem level_eq {f : UnpackedFloat} (hf : Bounded f) (hnan : f.isNaN = false) :
    level f = if word f < 0x8000000000000000 then (word f : ℤ) else 0x8000000000000000 - word f := by
  have hinf : infinityWord < 0x8000000000000000 := by decide
  cases f with
  | notANumber => cases hnan
  | zero s => cases s <;> rfl
  | infinity s => cases s <;> rfl
  | finite s m e hm =>
    rw [Bounded] at hf
    rw [word, level]
    cases s <;> rw [signWord, Sign.apply] <;> split_ifs <;> omega

theorem toBits_of_isNaN {x : Float} (h : x.isNaN = true) : x.toBits.toNat = nanWord := by
  rw [← word_unpacked, (isNaN_iff x).mp h]
  rfl

/-- The place in the total order is where the number stands, except that the negative numbers make
room for the negative zero. -/
theorem orderKey_spec {x : Float} (h : x.isNaN = false) :
    orderKey x ≤ infinityWord ∧
      level (unpacked x) = if 0 ≤ orderKey x then orderKey x else orderKey x + 1 := by
  have hbound := (canonical_unpacked x).2
  have hword := word_unpacked x
  have hle := word_le hbound h
  have hinf : infinityWord = 0x7ff0000000000000 := rfl
  rw [level_eq hbound h, hword]
  rw [hword] at hle
  simp only [orderKey, Int.ofNat_eq_natCast]
  constructor
  · split_ifs <;> omega
  · split_ifs <;> omega

theorem orderKey_of_isNaN {x : Float} (h : x.isNaN = true) : orderKey x = nanWord := by
  simp only [orderKey, toBits_of_isNaN h]
  rfl

theorem orderKey_le_nanWord (x : Float) : orderKey x ≤ nanWord := by
  cases h : x.isNaN with
  | true => exact (orderKey_of_isNaN h).le
  | false => exact (orderKey_spec h).1.trans (by decide)

theorem orderKey_injective : Function.Injective orderKey := fun a b h ↦ by
  have ha := a.toBits.toNat_lt
  have hb := b.toBits.toNat_lt
  refine eq_of_toBits ?_
  simp only [orderKey, Int.ofNat_eq_natCast] at h
  split_ifs at h <;> omega

/-- `a` does not come after `b` among all floats: what is no number comes last, and of the two zeros
the negative one comes first. -/
def TotallyLE (a b : Float) : Prop :=
  b.isNaN = true ∨ a < b ∨ a = b ∨ a = -0.0 ∧ b = 0.0

/-- **The total order.** The places of floats are in the total order. -/
theorem orderKey_le_iff (a b : Float) : orderKey a ≤ orderKey b ↔ TotallyLE a b := by
  have hminus : orderKey (-0.0) = -1 := by decide +kernel
  have hplus : orderKey 0.0 = 0 := by decide +kernel
  rw [TotallyLE, lt_iff, ← orderKey_injective.eq_iff (a := a), ← orderKey_injective.eq_iff (a := a),
    ← orderKey_injective.eq_iff (a := b), hminus, hplus]
  cases hb : b.isNaN with
  | true => exact iff_of_true (orderKey_of_isNaN hb ▸ orderKey_le_nanWord a) (.inl rfl)
  | false =>
    obtain ⟨hkey, hlevel⟩ := orderKey_spec hb
    cases ha : a.isNaN with
    | true =>
      have hnan : orderKey a = nanWord := orderKey_of_isNaN ha
      have hlt : infinityWord < nanWord := by decide
      simp only [Bool.false_eq_true, Bool.true_eq_false, false_and, false_or]
      omega
    | false =>
      obtain ⟨-, hlevel'⟩ := orderKey_spec ha
      simp only [Bool.false_eq_true, true_and, false_or]
      rw [hlevel, hlevel']
      split_ifs <;> omega

end Binary64
end SectionMonitor
