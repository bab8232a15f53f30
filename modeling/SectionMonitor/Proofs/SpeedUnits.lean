import Mathlib
import SectionMonitor.Proofs.FloatDivision
import SectionMonitor.Volume

/-!
# Units of speed

A speed is shown in the largest unit that it reaches. Whether it reaches a unit is asked of the speed
itself, but what is shown is the quotient, and this is rounded. So it has to be shown that rounding does
not make a thousand of an amount that belongs below it, nor less than one of an amount that has reached
its unit.

One is a float, so nothing that is at least one is rounded to less. The upper end is different: a
quotient just below a thousand could be rounded up to it. But a speed that does not reach the next unit
is a float too, and stays below this unit by a whole place (`Scale.abs_value_le_of_lt`). The quotient then
is not above the largest float below a thousand, and what it is rounded to is not, either.
-/

namespace SectionMonitor

open Binary64

namespace Scale

/-- Which power of a thousand the scale is. -/
def thousands : Scale → ℕ
  | .mega => 2
  | .giga => 3
  | .tera => 4
  | .peta => 5

theorem unit_pos (scale : Scale) : (0 : ℚ) < 1000 ^ scale.thousands := by positivity

theorem pow_mega : (1000 : ℚ) ^ mega.thousands = 10 ^ 6 := by norm_num [thousands]

theorem pow_peta_succ : (1000 : ℚ) ^ (peta.thousands + 1) = 10 ^ 18 := by norm_num [thousands]

theorem mega_le (scale : Scale) : mega.thousands ≤ scale.thousands := by cases scale <;> decide

theorem le_peta (scale : Scale) : scale.thousands ≤ peta.thousands := by cases scale <;> decide

/-! ## The factors -/

theorem unpacked_factor (scale : Scale) : ∃ m e hm,
    unpacked scale.factor = .finite .positive m e hm ∧ (m * 2 ^ e : ℚ) = 1000 ^ scale.thousands := by
  cases scale with
  | mega => exact ⟨1000000 * 2 ^ 33, -33, by decide, rfl, by norm_num [thousands]⟩
  | giga => exact ⟨1000000000 * 2 ^ 23, -23, by decide, rfl, by norm_num [thousands]⟩
  | tera => exact ⟨1000000000000 * 2 ^ 13, -13, by decide, rfl, by norm_num [thousands]⟩
  | peta => exact ⟨1000000000000000 * 2 ^ 3, -3, by decide, rfl, by norm_num [thousands]⟩

theorem value_factor (scale : Scale) : value scale.factor = 1000 ^ scale.thousands := by
  obtain ⟨m, e, hm, hunpacked, hvalue⟩ := unpacked_factor scale
  rw [value, hunpacked]
  exact hvalue

/-- A finite float reaches a scale if the number does. -/
theorem factor_le_abs_iff {v : Float} (hv : v.isFinite = true) (scale : Scale) :
    scale.factor ≤ v.abs ↔ 1000 ^ scale.thousands ≤ |value v| := by
  obtain ⟨m, e, hm, hunpacked, -⟩ := unpacked_factor scale
  have hamount : IsAmount scale.factor := by
    rw [IsAmount, hunpacked]
    exact .finite m e hm
  have hfinite : scale.factor.isFinite = true := by rw [isFinite_eq, hunpacked]; rfl
  rw [hamount.le_iff_value_le (isAmount_abs hv) hfinite (by rwa [isFinite_abs]), value_factor,
    value_abs]

/-! ## The choice of a scale -/

/-- The chosen scale is reached, unless it is the smallest one, and the next one is not, if there is
one. -/
theorem ofMagnitude_spec {v : Float} (hv : v.isFinite = true) :
    (ofMagnitude v.abs = .mega ∨ 1000 ^ (ofMagnitude v.abs).thousands ≤ |value v|) ∧
      (ofMagnitude v.abs = .peta ∨ |value v| < 1000 ^ ((ofMagnitude v.abs).thousands + 1)) := by
  simp only [ofMagnitude, ge_iff_le, factor_le_abs_iff hv]
  split_ifs with hpeta htera hgiga
  · exact ⟨.inr hpeta, .inl rfl⟩
  · exact ⟨.inr htera, .inr (not_le.mp hpeta)⟩
  · exact ⟨.inr hgiga, .inr (not_le.mp htera)⟩
  · exact ⟨.inl rfl, .inr (not_le.mp hgiga)⟩

/-- **The larger, the larger the unit.** -/
theorem thousands_ofMagnitude_mono {a b : Float} (ha : a.isFinite = true) (hb : b.isFinite = true)
    (hle : |value a| ≤ |value b|) :
    (ofMagnitude a.abs).thousands ≤ (ofMagnitude b.abs).thousands := by
  rcases (ofMagnitude_spec ha).1 with hmega | hreached
  · rw [hmega]
    exact mega_le _
  · rcases (ofMagnitude_spec hb).2 with hpeta | hnext
    · rw [hpeta]
      exact le_peta _
    · have hpower : (1000 : ℚ) ^ (ofMagnitude a.abs).thousands
          < 1000 ^ ((ofMagnitude b.abs).thousands + 1) := (hreached.trans hle).trans_lt hnext
      exact Nat.lt_succ_iff.mp ((pow_lt_pow_iff_right₀ (by norm_num)).mp hpower)

theorem ofMagnitude_of_lt {v : Float} (hv : v.isFinite = true) (hlt : |value v| < 10 ^ 6) :
    ofMagnitude v.abs = .mega := by
  refine (ofMagnitude_spec hv).1.resolve_right fun hreached ↦ hlt.not_ge ?_
  calc (10 ^ 6 : ℚ) = 1000 ^ mega.thousands := pow_mega.symm
    _ ≤ 1000 ^ (ofMagnitude v.abs).thousands := pow_le_pow_right₀ (by norm_num) (mega_le _)
    _ ≤ |value v| := hreached

theorem ofMagnitude_of_ge {v : Float} (hv : v.isFinite = true) (hge : 10 ^ 18 ≤ |value v|) :
    ofMagnitude v.abs = .peta := by
  refine (ofMagnitude_spec hv).2.resolve_right fun hnext ↦ hge.not_gt ?_
  calc |value v| < 1000 ^ ((ofMagnitude v.abs).thousands + 1) := hnext
    _ ≤ 1000 ^ (peta.thousands + 1) := pow_le_pow_right₀ (by norm_num) (Nat.succ_le_succ (le_peta _))
    _ = 10 ^ 18 := pow_peta_succ

/-! ## The gap below the next scale -/

/-- The largest float below a thousand. -/
def belowThousand : ℚ := 1000 - 2 ^ (-43 : ℤ)

theorem belowThousand_lt : belowThousand < 1000 := by norm_num [belowThousand]

theorem representable_belowThousand : Representable belowThousand :=
  ⟨1000 * 2 ^ 43 - 1, -43, by decide, by decide, by norm_num [belowThousand]⟩

/-- The next scale has more digits than a float needs, the last of them at a place that is larger than
the distance to a thousand in the units of this one. -/
theorem exists_place (scale : Scale) : ∃ n g : ℤ, 0x10000000000000 < n ∧
    (n * 2 ^ g : ℚ) = 1000 ^ (scale.thousands + 1) ∧
    ((n - 1) * 2 ^ g : ℚ) ≤ belowThousand * 1000 ^ scale.thousands := by
  cases scale with
  | mega => exact ⟨10 ^ 9 * 2 ^ 23, -23, by norm_num, by norm_num [thousands],
      by norm_num [thousands, belowThousand]⟩
  | giga => exact ⟨10 ^ 12 * 2 ^ 13, -13, by norm_num, by norm_num [thousands],
      by norm_num [thousands, belowThousand]⟩
  | tera => exact ⟨10 ^ 15 * 2 ^ 3, -3, by norm_num, by norm_num [thousands],
      by norm_num [thousands, belowThousand]⟩
  | peta => exact ⟨10 ^ 15 * 5 ^ 3 / 2 ^ 4, 7, by norm_num, by norm_num [thousands],
      by norm_num [thousands, belowThousand]⟩

/-- **The gap.** A float below the next scale is not closer to it than the largest float below a thousand,
taken in the units of this one. -/
theorem abs_value_le_of_lt {v : Float} (scale : Scale)
    (hlt : |value v| < 1000 ^ (scale.thousands + 1)) :
    |value v| ≤ belowThousand * 1000 ^ scale.thousands := by
  obtain ⟨n, g, hn, hnext, hplace⟩ := exists_place scale
  rw [← hnext, ← value_abs] at hlt
  rw [← value_abs]
  exact ((representable_value _).le_of_lt hn hlt).trans hplace

end Scale

namespace Speed

/-! ## The amount -/

/-- The amount is the speed in units of its scale, rounded to a nearest float. -/
theorem amount_isNearest {v : Float} (hv : v.isFinite = true) (scale : Scale) :
    (v / scale.factor).isFinite = true ∧
      IsNearest (value v / 1000 ^ scale.thousands) (value (v / scale.factor)) := by
  have hone : 1 ≤ value scale.factor := by
    rw [Scale.value_factor]
    exact one_le_pow₀ (by norm_num)
  have hdivision := div_isNearest hv hone
  rwa [Scale.value_factor] at hdivision

section
variable {v : Float} {r : ℚ} {scale : Scale}

theorem one_le_amount (h : IsNearest (value v / 1000 ^ scale.thousands) r)
    (hreached : 1000 ^ scale.thousands ≤ |value v|) : 1 ≤ |r| := by
  refine h.abs.le_of_le (by exact_mod_cast Representable.intCast (k := 1) (by decide)) ?_
  rwa [abs_div, abs_of_pos scale.unit_pos, one_le_div scale.unit_pos]

theorem amount_lt_thousand (h : IsNearest (value v / 1000 ^ scale.thousands) r)
    (hlt : |value v| < 1000 ^ (scale.thousands + 1)) : |r| < 1000 := by
  refine (h.abs.ge_of_ge Scale.representable_belowThousand ?_).trans_lt Scale.belowThousand_lt
  rw [abs_div, abs_of_pos scale.unit_pos, div_le_iff₀ scale.unit_pos]
  exact Scale.abs_value_le_of_lt scale hlt

theorem thousand_le_amount (h : IsNearest (value v / 1000 ^ scale.thousands) r)
    (hge : 1000 ^ (scale.thousands + 1) ≤ |value v|) : 1000 ≤ |r| := by
  refine h.abs.le_of_le (by exact_mod_cast Representable.intCast (k := 1000) (by decide)) ?_
  rwa [abs_div, abs_of_pos scale.unit_pos, le_div_iff₀ scale.unit_pos, ← pow_succ']

theorem sign_amount (h : IsNearest (value v / 1000 ^ scale.thousands) r) (hr : 1 ≤ |r|) :
    SignType.sign r = SignType.sign (value v) := by
  have hne : r ≠ 0 := abs_pos.mp (zero_lt_one.trans_le hr)
  rw [h.sign_eq hne, div_eq_mul_inv, sign_mul, sign_pos (inv_pos.mpr scale.unit_pos), mul_one]

end

/-- **Units of speed.** A larger speed is not shown in a smaller unit. The amount is the quotient, rounded
to a nearest float. From a million up to a quintillion it has the sign of the speed, is at least one and
stays below a thousand, also where the quotient is rounded. What is smaller is shown in millions; what is
larger is shown in the largest unit, a thousand of them or more. -/
theorem normalize_in_range (kind : Kind) :
    (∀ a b : Float, a.isFinite = true → b.isFinite = true → |value a| ≤ |value b| →
      (normalize a kind).unit.scale.thousands ≤ (normalize b kind).unit.scale.thousands) ∧
    ∀ v : Float, v.isFinite = true →
      let speed := normalize v kind
      value speed.unit.scale.factor = 1000 ^ speed.unit.scale.thousands ∧
      speed.amount.isFinite = true ∧
      IsNearest (value v / 1000 ^ speed.unit.scale.thousands) (value speed.amount) ∧
      (10 ^ 6 ≤ |value v| → |value v| < 10 ^ 18 →
        SignType.sign (value speed.amount) = SignType.sign (value v) ∧
          1 ≤ |value speed.amount| ∧ |value speed.amount| < 1000) ∧
      (|value v| < 10 ^ 6 → speed.unit.scale = .mega) ∧
      (10 ^ 18 ≤ |value v| → speed.unit.scale = .peta ∧ 1000 ≤ |value speed.amount|) := by
  refine ⟨fun a b ha hb hle ↦ Scale.thousands_ofMagnitude_mono ha hb hle, fun v hv ↦ ?_⟩
  obtain ⟨hfinite, hnearest⟩ := amount_isNearest hv (.ofMagnitude v.abs)
  obtain ⟨hchosen, hnext⟩ := Scale.ofMagnitude_spec hv
  refine ⟨Scale.value_factor _, hfinite, hnearest, fun hlow hhigh ↦ ?_,
    Scale.ofMagnitude_of_lt hv, fun hge ↦ ?_⟩
  · have hreached : 1000 ^ (Scale.ofMagnitude v.abs).thousands ≤ |value v| := by
      refine hchosen.elim (fun hmega ↦ ?_) id
      rwa [hmega, Scale.pow_mega]
    have hbelow : |value v| < 1000 ^ ((Scale.ofMagnitude v.abs).thousands + 1) := by
      refine hnext.elim (fun hpeta ↦ ?_) id
      rwa [hpeta, Scale.pow_peta_succ]
    have hone := one_le_amount hnearest hreached
    exact ⟨sign_amount hnearest hone, hone, amount_lt_thousand hnearest hbelow⟩
  · have hpeta := Scale.ofMagnitude_of_ge hv hge
    refine ⟨hpeta, thousand_le_amount hnearest ?_⟩
    rwa [hpeta, Scale.pow_peta_succ]

/-- The float next to a billion, with a negative sign: it is still shown in millions, and as less than a
thousand of them. -/
theorem normalize_below_a_billion :
    let v : Float := -999999999.9999999
    let speed := normalize v .communication
    value v = -(10 ^ 9 - 2 ^ (-23 : ℤ)) ∧ SignType.sign (value speed.amount) = -1 ∧
      1 ≤ |value speed.amount| ∧ |value speed.amount| < 1000 ∧
      speed.unit.scale.thousands ≤ (normalize 1e9 .communication).unit.scale.thousands := by
  have hread : unpacked (-999999999.9999999)
      = .finite .negative 8388607999999999 (-23) (by decide) := rfl
  have hvalue : value (-999999999.9999999) = -(10 ^ 9 - 2 ^ (-23 : ℤ)) := by
    rw [value, hread]
    norm_num [rational, signed]
  have hbillion : value 1e9 = 10 ^ 9 := (Scale.value_factor .giga).trans (by norm_num [Scale.thousands])
  have habs : |value (-999999999.9999999)| = 10 ^ 9 - 2 ^ (-23 : ℤ) := by
    rw [hvalue, abs_neg, abs_of_pos (by norm_num)]
  obtain ⟨-, -, -, hrange, -, -⟩ := (normalize_in_range .communication).2 (-999999999.9999999) rfl
  obtain ⟨hsign, hone, hlt⟩ := hrange (by rw [habs]; norm_num) (by rw [habs]; norm_num)
  have hnegative : SignType.sign (value (-999999999.9999999)) = -1 := by
    rw [hvalue]
    exact sign_neg (by norm_num)
  refine ⟨hvalue, hsign.trans hnegative, hone, hlt, ?_⟩
  refine (normalize_in_range .communication).1 _ _ rfl rfl ?_
  rw [habs, hbillion]
  norm_num

end Speed
end SectionMonitor
