import DeployPlan.Proofs.Binary64.Rounding
import DeployPlan.Proofs.Text.Digits
import Mathlib.Algebra.Order.Floor.Semifield

/-!
# The fewest digits

The decimal with the fewest digits that is chosen for a number is rounded to that number.  Seventeen
digits are always enough.

## Main definitions

* `Decimal.value` — a decimal as a rational.

## Main results

* `Binary64.roundsTo_iff` — the test for decimals that are rounded to a number.
* `Binary64.shortest_near` — the decimal that is chosen is rounded to the number.
* `Decimal.toBinary64_of_near` — so it is read as that number.
-/

set_option autoImplicit false

namespace DeployPlan

namespace Decimal

/-- The number that a decimal stands for. -/
def value (d : Decimal) : ℚ := d.digits * 10 ^ d.exponent

/-- The value as a quotient of natural numbers. -/
theorem value_eq_div (d : Decimal) :
    d.value = (d.digits * 10 ^ d.exponent.toNat : ℕ) / (10 ^ (-d.exponent).toNat : ℕ) := by
  have := scaled_div (b := 10) (by decide) d.digits 1 (-d.exponent)
  rw [neg_neg, Nat.one_mul, Nat.cast_one, div_one, zpow_neg, div_inv_eq_mul] at this
  exact this.symm

/-- Zeros at the end of the digits can be taken into the exponent. -/
theorem normalize_value (d : Decimal) : d.normalize.value = d.value := by
  rw [normalize]
  split_ifs with hzero
  · rw [value, value, hzero, Nat.cast_zero, zero_mul, zero_mul]
  · set zeros := ((Nat.toDigits 10 d.digits).reverse.takeWhile (· == '0')).length with hzeros
    obtain ⟨front, hfront⟩ := hzeros ▸ Text.pow_trailing_zeros_dvd d.digits
    have hdiv : d.digits / Nat.pow 10 zeros = front := by
      rw [hfront]
      exact Nat.mul_div_cancel_left _ (Nat.pow_pos (by decide))
    change ((d.digits / Nat.pow 10 zeros : ℕ) : ℚ) * 10 ^ (d.exponent + zeros) = _
    rw [hdiv, value, hfront, zpow_add₀ (by norm_num), zpow_natCast]
    push_cast
    ring

end Decimal

namespace Binary64

variable {num den : ℕ} {x : Binary64} {d : Decimal} {r : ℚ}

/-! ## The test -/

/-- **The test** whether a decimal is rounded to a number other than zero. -/
theorem roundsTo_iff (hx : x.significand ≠ 0) : x.roundsTo d = true ↔ x.Near d.value := by
  set D : ℕ := 10 ^ (-d.exponent).toNat with hD
  set U : ℕ := 2 ^ x.scale.toNat with hU
  set W : ℕ := 2 ^ (-x.scale).toNat with hW
  set N : ℕ := d.digits * 10 ^ d.exponent.toNat with hN
  have hDpos : (0 : ℚ) < D := by exact_mod_cast Nat.pow_pos (by decide)
  have hWpos : (0 : ℚ) < W := by exact_mod_cast Nat.pow_pos (by decide)
  have hquarters : x.lowerQuarters ≤ 4 * x.significand := by
    have := x.lowerQuarters_le
    omega
  have hunit : (2 : ℚ) ^ x.scale = U / W := by
    have := zpow_eq_toNat_div (b := 2) two_pos x.scale
    rw [hU, hW]
    exact_mod_cast this
  have hlow : (((4 * x.significand - x.lowerQuarters) * U * D : ℕ) : ℚ) =
      x.lowerEnd * (4 * W * D) := by
    rw [lowerEnd, hunit]
    push_cast [hquarters]
    field_simp
  have hhigh : (((4 * x.significand + 2) * U * D : ℕ) : ℚ) = x.upperEnd * (4 * W * D) := by
    rw [upperEnd, hunit]
    push_cast
    field_simp
    ring
  have hvalue : ((N * (4 * W) : ℕ) : ℚ) = d.value * (4 * W * D) := by
    rw [Decimal.value_eq_div, ← hN, ← hD]
    push_cast
    field_simp
  have hscale : (0 : ℚ) < 4 * W * D := by positivity
  set A : ℕ := (4 * x.significand - x.lowerQuarters) * U * D
  set B : ℕ := (4 * x.significand + 2) * U * D
  set V : ℕ := N * (4 * W)
  have hlowle : A ≤ V ↔ x.lowerEnd ≤ d.value := by
    rw [← Nat.cast_le (α := ℚ), hlow, hvalue, mul_le_mul_iff_left₀ hscale]
  have hlowlt : A < V ↔ x.lowerEnd < d.value := by
    rw [← Nat.cast_lt (α := ℚ), hlow, hvalue, mul_lt_mul_iff_left₀ hscale]
  have hhighle : V ≤ B ↔ d.value ≤ x.upperEnd := by
    rw [← Nat.cast_le (α := ℚ), hhigh, hvalue, mul_le_mul_iff_left₀ hscale]
  have hhighlt : V < B ↔ d.value < x.upperEnd := by
    rw [← Nat.cast_lt (α := ℚ), hhigh, hvalue, mul_lt_mul_iff_left₀ hscale]
  change (if x.significand % 2 = 0 then decide (A ≤ V) && decide (V ≤ B)
    else decide (A < V) && decide (V < B)) = true ↔ _
  rw [Near, ← hlowle, ← hlowlt, ← hhighle, ← hhighlt]
  split_ifs with heven
  · rw [Bool.and_eq_true, decide_eq_true_iff, decide_eq_true_iff]
    exact ⟨fun h => ⟨h.1, h.2, by omega⟩, fun h => ⟨h.1, h.2.1⟩⟩
  · rw [Bool.and_eq_true, decide_eq_true_iff, decide_eq_true_iff]
    exact ⟨fun h => ⟨h.1.le, h.2.le, fun _ => h⟩, fun h => h.2.2 (by omega)⟩

/-! ## Seventeen digits -/

/-- **The decimal exponent** of a quotient. -/
theorem decimalExponent_eq_log (hnum : 0 < num) (hden : 0 < den) :
    decimalExponent num den = Int.log 10 (num / den : ℚ) := by
  have hnum' : (0 : ℚ) < num := by positivity
  have hden' : (0 : ℚ) < den := by positivity
  symm
  rw [decimalExponent]
  split_ifs with hle
  · have hone : (1 : ℚ) ≤ num / den := (one_le_div₀ hden').mpr (by exact_mod_cast hle)
    rw [Int.log_of_one_le_right 10 hone, Nat.floor_div_eq_div,
      Text.length_toDigits (Nat.div_pos hle hden)]
    omega
  · have hquotient : 0 < den / num := Nat.div_pos (by omega) hnum
    have hlength := Text.length_toDigits hquotient
    obtain ⟨hlow, hhigh⟩ := Text.length_toDigits_bounds hquotient
    generalize Nat.log 10 (den / num) = j at hlength
    rw [hlength] at hlow hhigh ⊢
    have hle_iff : ∀ k : ℕ, (10 : ℚ) ^ (-k : ℤ) ≤ num / den ↔ den ≤ num * 10 ^ k := by
      intro k
      have := scaled_le_iff (b := 10) (by decide) num hden (-k)
      simp only [neg_neg, Int.toNat_natCast, Int.toNat_neg_natCast, pow_zero, mul_one] at this
      exact this.symm
    change Int.log 10 (num / den : ℚ) =
      if den ≤ num * 10 ^ (j + 1 - 1) then 1 - ((j + 1 : ℕ) : ℤ) else -((j + 1 : ℕ) : ℤ)
    rw [Nat.add_sub_cancel] at hlow ⊢
    split_ifs with htest
    · rw [show 1 - ((j + 1 : ℕ) : ℤ) = -j by omega]
      refine log_eq_of_bounds (by decide) ((hle_iff j).mpr htest) ?_
      have hinv : (num / den : ℚ) ≤ 10 ^ (-j : ℤ) := by
        have : (10 ^ j * num : ℚ) ≤ den := by
          exact_mod_cast (Nat.le_div_iff_mul_le hnum).mp hlow
        rw [zpow_neg, zpow_natCast, div_le_iff₀ hden', inv_mul_eq_div, le_div_iff₀ (by positivity)]
        linarith
      exact lt_of_le_of_lt hinv (zpow_lt_zpow_right₀ (by norm_num) (by omega))
    · refine log_eq_of_bounds (by decide) ((hle_iff (j + 1)).mpr ?_) ?_
      · exact ((Nat.div_lt_iff_lt_mul hnum).mp hhigh).le.trans_eq (Nat.mul_comm _ _)
      · rw [show -((j + 1 : ℕ) : ℤ) + 1 = -j by omega]
        exact not_le.mp ((hle_iff j).not.mpr htest)

/-- What is chosen among the decimals of some length is rounded to the number. -/
theorem roundsTo_of_neighbour? {n : ℕ} (h : x.neighbour? n = some d) : x.roundsTo d = true := by
  simp only [neighbour?] at h
  split_ifs at h <;> cases h <;> assumption

/-- The magnitude of a number other than zero is positive. -/
theorem magnitude_pos (hx : x.significand ≠ 0) : 0 < x.magnitude := by
  have : (0 : ℚ) < x.significand := by exact_mod_cast Nat.pos_of_ne_zero hx
  exact mul_pos this (zpow_pos two_pos _)

/-- A rational is rounded to a number if its distance from the number is small enough, compared
with the number. -/
theorem near_of_abs_sub_le
    (h : |r - x.magnitude| ≤ 1 / 2 * (x.magnitude / 10 ^ 16)) : x.Near r := by
  have hunit : (0 : ℚ) < 2 ^ x.scale := zpow_pos two_pos _
  have hlt : (x.significand : ℚ) + 1 ≤ 2 ^ 53 := by exact_mod_cast x.significand_lt
  have hquarters : (x.significand : ℚ) / 10 ^ 16 < x.lowerQuarters / 2 := by
    rw [lowerQuarters_eq]
    split_ifs with hpower
    · rw [hpower.1]
      norm_num
    · norm_num
      linarith
  have hdistance : x.magnitude / 10 ^ 16 < x.lowerQuarters / 2 * 2 ^ x.scale := by
    rw [magnitude, mul_div_right_comm]
    exact mul_lt_mul_of_pos_right hquarters hunit
  have hle : (x.lowerQuarters / 2 * 2 ^ x.scale : ℚ) ≤ 1 * 2 ^ x.scale := by
    have : (x.lowerQuarters : ℚ) ≤ 2 := by exact_mod_cast x.lowerQuarters_le
    exact mul_le_mul_of_nonneg_right (by linarith) hunit.le
  obtain ⟨hlow, hhigh⟩ := abs_le.mp h
  have hlow : x.lowerEnd < r := by
    have : x.lowerEnd = x.magnitude - 1 / 2 * (x.lowerQuarters / 2 * 2 ^ x.scale) := by
      rw [lowerEnd, magnitude]
      ring
    linarith
  have hhigh : r < x.upperEnd := by
    have : x.upperEnd = x.magnitude + 1 / 2 * (1 * 2 ^ x.scale) := by
      rw [upperEnd, magnitude]
      ring
    linarith
  exact ⟨hlow.le, hhigh.le, fun _ => ⟨hlow, hhigh⟩⟩

/-- **Seventeen digits are enough** to find a decimal that is rounded to the number. -/
theorem exists_neighbour?_seventeen (hx : x.significand ≠ 0) : ∃ d, x.neighbour? 17 = some d := by
  have hpos := magnitude_pos hx
  have hnum : 0 < x.numerator :=
    Nat.mul_pos (Nat.pos_of_ne_zero hx) (Nat.pow_pos two_pos)
  set grid := decimalExponent x.numerator x.denominator - 17 + 1 with hgrid
  have hunit : (0 : ℚ) < 10 ^ grid := zpow_pos (by norm_num) _
  -- the unit of the last digit is small, compared with the number
  have hsmall : (10 : ℚ) ^ grid ≤ x.magnitude / 10 ^ 16 := by
    have hle : (10 : ℚ) ^ (grid + 16) ≤ x.magnitude := by
      rw [hgrid, decimalExponent_eq_log hnum x.denominator_pos, ← magnitude_eq_div,
        show Int.log 10 x.magnitude - 17 + 1 + 16 = Int.log 10 x.magnitude by ring]
      exact_mod_cast Int.zpow_log_le_self (b := 10) (by decide) hpos
    rw [le_div_iff₀ (by positivity)]
    rw [zpow_add₀ (by norm_num)] at hle
    exact_mod_cast hle
  set num := x.numerator * 10 ^ (-grid).toNat
  set den := x.denominator * 10 ^ grid.toNat
  have hratio : (num / den : ℚ) = x.magnitude / 10 ^ grid := by
    have := scaled_div (b := 10) (by decide) x.numerator x.denominator grid
    rw [magnitude_eq_div]
    exact_mod_cast this
  have hnear : x.Near (⟨roundQuotient num den, grid⟩ : Decimal).value := by
    refine near_of_abs_sub_le (le_trans ?_ (mul_le_mul_of_nonneg_left hsmall (by norm_num)))
    have hden : 0 < den := Nat.mul_pos x.denominator_pos (Nat.pow_pos (by decide))
    have habs := (nearestEven_roundQuotient num hden).abs_sub_le
    rw [hratio] at habs
    calc |(⟨roundQuotient num den, grid⟩ : Decimal).value - x.magnitude|
        = |((roundQuotient num den : ℚ) - x.magnitude / 10 ^ grid) * 10 ^ grid| := by
          rw [sub_mul, div_mul_cancel₀ _ hunit.ne']
          rfl
      _ = |(roundQuotient num den : ℚ) - x.magnitude / 10 ^ grid| * 10 ^ grid := by
          rw [abs_mul, abs_of_pos hunit]
      _ ≤ 1 / 2 * 10 ^ grid := mul_le_mul_of_nonneg_right habs hunit.le
  have hnearer : (if roundQuotient num den = num / den then ⟨num / den, grid⟩
      else ⟨num / den + 1, grid⟩ : Decimal) = ⟨roundQuotient num den, grid⟩ := by
    split_ifs with h
    · rw [h]
    · rw [(roundQuotient_eq_or num den).resolve_left h]
  have htest := (congrArg x.roundsTo hnearer).trans ((roundsTo_iff hx).mpr hnear)
  exact ⟨_, if_pos htest⟩

/-- **The decimal that is chosen** for a number is rounded to the number. -/
theorem shortest_near (hx : x.significand ≠ 0) : x.Near x.shortest.value := by
  obtain ⟨d, hd⟩ := exists_neighbour?_seventeen hx
  have hfound : ∃ d, ((List.range 17).findSome? fun n => x.neighbour? (n + 1)) = some d := by
    refine Option.isSome_iff_exists.mp (List.findSome?_isSome_iff.mpr ⟨16, by simp, ?_⟩)
    rw [hd]
    rfl
  obtain ⟨d, hfound⟩ := hfound
  obtain ⟨n, -, hn⟩ := List.exists_of_findSome?_eq_some hfound
  rw [shortest, if_neg hx, hfound]
  change x.Near d.normalize.value
  rw [Decimal.normalize_value]
  exact (roundsTo_iff hx).mp (roundsTo_of_neighbour? hn)

end Binary64

/-! ## Reading -/

namespace Decimal

variable {x : Binary64} {d : Decimal}

/-- A decimal lies between two powers of ten that its exponent and its digits tell. -/
theorem value_bounds (hdigits : 0 < d.digits) :
    (10 : ℚ) ^ (d.exponent + (Nat.toDigits 10 d.digits).length - 1) ≤ d.value ∧
      d.value < 10 ^ (d.exponent + (Nat.toDigits 10 d.digits).length) := by
  obtain ⟨hlow, hhigh⟩ := Text.length_toDigits_bounds hdigits
  have hlength := Nat.length_toDigits_pos (b := 10) (n := d.digits)
  have hunit : (0 : ℚ) < 10 ^ d.exponent := zpow_pos (by norm_num) _
  constructor
  · rw [show d.exponent + (Nat.toDigits 10 d.digits).length - 1 =
      ((Nat.toDigits 10 d.digits).length - 1 : ℕ) + d.exponent by omega,
      zpow_add₀ (by norm_num), zpow_natCast]
    exact mul_le_mul_of_nonneg_right (by exact_mod_cast hlow) hunit.le
  · rw [add_comm d.exponent, zpow_add₀ (by norm_num), zpow_natCast]
    exact mul_lt_mul_of_pos_right (by exact_mod_cast hhigh) hunit

/-- **A decimal that is rounded to a number** is read as that number. -/
theorem toBinary64_of_near (hfinite : x.isFinite = true) (hx : x.significand ≠ 0)
    (h : x.Near d.value) (negative : Bool) :
    d.toBinary64 negative = Binary64.ofMagnitudeBits negative x.magnitudeBits := by
  have hpos : 0 < d.value := lt_of_lt_of_le (zpow_pos two_pos _) (h.pos hx)
  have hdigits : 0 < d.digits := by
    by_contra hzero
    rw [value, Nat.eq_zero_of_not_pos hzero, Nat.cast_zero, zero_mul] at hpos
    exact hpos.false
  obtain ⟨hlow, hhigh⟩ := value_bounds hdigits
  have hlarge : ¬ d.exponent + (Nat.toDigits 10 d.digits).length > 310 := by
    intro hgt
    have hvalue : d.value < 10 ^ (310 : ℤ) := calc
      d.value < 2 ^ (x.scale + 53) := h.lt
      _ ≤ 2 ^ (1024 : ℤ) := by
          have := x.scale_le hfinite
          exact zpow_le_zpow_right₀ one_le_two (by omega)
      _ ≤ 10 ^ (310 : ℤ) := by exact_mod_cast (by decide +kernel : 2 ^ 1024 ≤ 10 ^ 310)
    exact absurd (hlow.trans_lt hvalue)
      (not_lt.mpr (zpow_le_zpow_right₀ (by norm_num) (by omega)))
  have hsmall : ¬ d.exponent + (Nat.toDigits 10 d.digits).length < -330 := by
    intro hlt
    have hvalue : (10 : ℚ) ^ (-330 : ℤ) ≤ d.value := calc
      (10 : ℚ) ^ (-330 : ℤ) ≤ 2 ^ (-1075 : ℤ) := by
          rw [zpow_neg, zpow_neg]
          refine inv_anti₀ (zpow_pos two_pos _) ?_
          exact_mod_cast (by decide +kernel : 2 ^ 1075 ≤ 10 ^ 330)
      _ ≤ d.value := h.pos hx
    exact absurd (hvalue.trans_lt hhigh)
      (not_lt.mpr (zpow_le_zpow_right₀ (by norm_num) (by omega)))
  rw [toBinary64, if_neg hdigits.ne', if_neg hlarge, if_neg hsmall]
  rw [value_eq_div] at h
  exact Binary64.ofRatio_eq_of_near hfinite hx (Nat.pow_pos (by decide)) h negative

end Decimal

end DeployPlan
