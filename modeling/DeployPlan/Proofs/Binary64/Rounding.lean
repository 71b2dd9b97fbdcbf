import DeployPlan.Binary64.Decimal
import Mathlib.Data.Int.Log
import Mathlib.Data.Rat.Floor
import Mathlib.Tactic.FieldSimp
import Mathlib.Tactic.Linarith
import Mathlib.Tactic.Positivity
import Mathlib.Tactic.Ring

/-!
# Rounding to double precision

Around each finite number lies an interval of rationals that are nearer to it than to any other
such number, or as near and the number is even.  A quotient of natural numbers is rounded to a
number exactly if it lies in the interval of that number.

## Main definitions

* `Binary64.NearestEven` — the integer that a rational is rounded to.
* `Binary64.magnitude` — the magnitude of a finite number, as a rational.
* `Binary64.Near` — the rationals that are rounded to the magnitude of a finite number.

## Main results

* `Binary64.binaryExponent_eq_log`, `nearestEven_roundQuotient` — the exponent and the nearest
  integer of a quotient.
* `Binary64.ofRatio_eq_of_near` — what a quotient is rounded to.
-/

set_option autoImplicit false

namespace DeployPlan

/-! ## Powers with an integer exponent -/

section Powers

variable {b den : ℕ}

/-- A power is a quotient of powers with a natural exponent. -/
theorem zpow_eq_toNat_div (hb : 0 < b) (p : ℤ) :
    (b : ℚ) ^ p = (b : ℚ) ^ p.toNat / (b : ℚ) ^ (-p).toNat := by
  have hb : (b : ℚ) ≠ 0 := by positivity
  rw [← zpow_natCast, ← zpow_natCast, ← zpow_sub₀ hb]
  congr 1
  omega

/-- A quotient is scaled by a power in its numerator or its denominator. -/
theorem scaled_div (hb : 0 < b) (num den : ℕ) (p : ℤ) :
    ((num * b ^ (-p).toNat : ℕ) : ℚ) / (den * b ^ p.toNat : ℕ) = num / den / (b : ℚ) ^ p := by
  rw [zpow_eq_toNat_div hb, div_div_div_eq]
  push_cast
  rfl

/-- A quotient is compared with a power. -/
theorem scaled_le_iff (hb : 0 < b) (num : ℕ) (hden : 0 < den) (p : ℤ) :
    den * b ^ p.toNat ≤ num * b ^ (-p).toNat ↔ (b : ℚ) ^ p ≤ num / den := by
  have hb' : (0 : ℚ) < (b : ℚ) ^ (-p).toNat := by positivity
  have hden' : (0 : ℚ) < den := by positivity
  rw [zpow_eq_toNat_div hb, div_le_div_iff₀ hb' hden', ← Nat.cast_le (α := ℚ)]
  push_cast
  rw [mul_comm (den : ℚ)]

/-- The exponent of the greatest power that is not greater than a number. -/
theorem log_eq_of_bounds {r : ℚ} {k : ℤ} (hb : 1 < b) (hlow : (b : ℚ) ^ k ≤ r)
    (hhigh : r < (b : ℚ) ^ (k + 1)) : Int.log b r = k := by
  have hpos : (0 : ℚ) < b := by positivity
  have hr : 0 < r := lt_of_lt_of_le (zpow_pos hpos k) hlow
  have hle := (Int.zpow_le_iff_le_log hb hr).mp hlow
  have hlt := (Int.lt_zpow_iff_log_lt hb hr).mp hhigh
  omega

end Powers

namespace Binary64

variable {num den : ℕ}

/-! ## Quotients -/

/-- **The binary exponent** of a quotient. -/
theorem binaryExponent_eq_log (hnum : 0 < num) (hden : 0 < den) :
    binaryExponent num den = Int.log 2 (num / den : ℚ) := by
  set k : ℤ := (num.log2 : ℤ) - den.log2 with hk
  have hnum' : (0 : ℚ) < num := by positivity
  have hden' : (0 : ℚ) < den := by positivity
  have hupper : (num / den : ℚ) < 2 ^ (k + 1) := by
    have hlt : (num : ℚ) < 2 ^ (num.log2 + 1) := by exact_mod_cast Nat.lt_log2_self
    have hle : (2 : ℚ) ^ den.log2 ≤ den := by exact_mod_cast Nat.log2_self_le hden.ne'
    calc (num / den : ℚ) < 2 ^ (num.log2 + 1) / 2 ^ den.log2 :=
          div_lt_div₀ hlt hle (by positivity) (by positivity)
      _ = 2 ^ (k + 1) := by
          rw [← zpow_natCast, ← zpow_natCast, ← zpow_sub₀ two_ne_zero]
          congr 1
          omega
  have hlower : (2 : ℚ) ^ (k - 1) ≤ num / den := by
    have hle : (2 : ℚ) ^ num.log2 ≤ num := by exact_mod_cast Nat.log2_self_le hnum.ne'
    have hlt : (den : ℚ) < 2 ^ (den.log2 + 1) := by exact_mod_cast Nat.lt_log2_self
    calc (2 : ℚ) ^ (k - 1) = 2 ^ num.log2 / 2 ^ (den.log2 + 1) := by
          rw [← zpow_natCast, ← zpow_natCast, ← zpow_sub₀ two_ne_zero]
          congr 1
          omega
      _ ≤ num / den := div_le_div₀ hnum'.le hle hden' hlt.le
  have htest : num * 2 ^ (-k).toNat < den * 2 ^ k.toNat ↔ (num / den : ℚ) < 2 ^ k := by
    rw [← not_le, ← not_le]
    exact not_congr (by exact_mod_cast scaled_le_iff (b := 2) two_pos num hden k)
  change (if num * 2 ^ (-k).toNat < den * 2 ^ k.toNat then k - 1 else k) = _
  symm
  split_ifs with h
  · exact log_eq_of_bounds one_lt_two (by exact_mod_cast hlower)
      (by rw [sub_add_cancel]; exact_mod_cast htest.mp h)
  · exact log_eq_of_bounds one_lt_two (by exact_mod_cast not_lt.mp (htest.not.mp h))
      (by exact_mod_cast hupper)

/-- The integer is the nearest one to a rational; half way between two it is the even one. -/
def NearestEven (m : ℕ) (r : ℚ) : Prop :=
  m - 1 / 2 ≤ r ∧ r ≤ m + 1 / 2 ∧ (m % 2 = 1 → m - 1 / 2 < r ∧ r < m + 1 / 2)

/-- There is one nearest integer. -/
theorem NearestEven.unique {m n : ℕ} {r : ℚ} (hm : NearestEven m r) (hn : NearestEven n r) :
    m = n := by
  obtain ⟨hmlow, hmhigh, hmodd⟩ := hm
  obtain ⟨hnlow, hnhigh, hnodd⟩ := hn
  have hle : m ≤ n + 1 := by
    have : (m : ℚ) ≤ (n + 1 : ℕ) := by
      push_cast
      linarith
    exact_mod_cast this
  have hge : n ≤ m + 1 := by
    have : (n : ℚ) ≤ (m + 1 : ℕ) := by
      push_cast
      linarith
    exact_mod_cast this
  -- half way between two neighbours both would have to be even
  by_contra hne
  obtain rfl | rfl : m = n + 1 ∨ n = m + 1 := by omega
  · push_cast at hmlow hmodd
    obtain hodd | hodd : (n + 1) % 2 = 1 ∨ n % 2 = 1 := by omega
    · linarith [(hmodd hodd).1]
    · linarith [(hnodd hodd).2]
  · push_cast at hnlow hnodd
    obtain hodd | hodd : (m + 1) % 2 = 1 ∨ m % 2 = 1 := by omega
    · linarith [(hnodd hodd).1]
    · linarith [(hmodd hodd).2]

/-- The nearest integer is at most one half away. -/
theorem NearestEven.abs_sub_le {m : ℕ} {r : ℚ} (h : NearestEven m r) : |(m : ℚ) - r| ≤ 1 / 2 :=
  abs_le.mpr ⟨by linarith [h.2.1], by linarith [h.1]⟩

/-- The nearest integer to a quotient, without fractions. -/
theorem nearestEven_div_iff {m : ℕ} (hden : 0 < den) :
    NearestEven m (num / den) ↔ 2 * (m * den) ≤ 2 * num + den ∧ 2 * num ≤ 2 * (m * den) + den ∧
      (m % 2 = 1 → 2 * (m * den) < 2 * num + den ∧ 2 * num < 2 * (m * den) + den) := by
  have hden' : (0 : ℚ) < den := by positivity
  rw [NearestEven, le_div_iff₀ hden', div_le_iff₀ hden', lt_div_iff₀ hden', div_lt_iff₀ hden']
  refine and_congr ?_ (and_congr ?_ (imp_congr_right fun _ => and_congr ?_ ?_))
  · rw [← Nat.cast_le (α := ℚ)]
    push_cast
    constructor <;> intro h <;> linarith
  · rw [← Nat.cast_le (α := ℚ)]
    push_cast
    constructor <;> intro h <;> linarith
  · rw [← Nat.cast_lt (α := ℚ)]
    push_cast
    constructor <;> intro h <;> linarith
  · rw [← Nat.cast_lt (α := ℚ)]
    push_cast
    constructor <;> intro h <;> linarith

/-- **The nearest integer** to a quotient is found. -/
theorem nearestEven_roundQuotient (num : ℕ) (hden : 0 < den) :
    NearestEven (roundQuotient num den) (num / den) := by
  have hnum := Nat.div_add_mod num den
  have hmod := Nat.mod_lt num hden
  rw [nearestEven_div_iff hden, roundQuotient]
  rw [Nat.mul_comm] at hnum
  generalize num / den = q at *
  generalize num % den = r at *
  split_ifs with hlt heq
  · omega
  · obtain hq | hq := Nat.mod_two_eq_zero_or_one q <;> rw [hq, Nat.add_mul] <;> omega
  · rw [Nat.add_mul]
    omega

/-- The nearest integer is the one below or the one above. -/
theorem roundQuotient_eq_or (num den : ℕ) :
    roundQuotient num den = num / den ∨ roundQuotient num den = num / den + 1 := by
  have := Nat.mod_lt (num / den) two_pos
  rw [roundQuotient]
  split_ifs <;> omega

/-! ## Finite numbers -/

section Parts

variable (x : Binary64)

/-- The parts of the pattern of a magnitude. -/
theorem magnitudeBits_eq :
    x.magnitudeBits = (x.scale + 1074).toNat * 2 ^ 52 + x.significand := by
  have hsplit := Nat.div_add_mod x.magnitudeBits (2 ^ 52)
  rw [scale, significand]
  change 2 ^ 52 * x.exponentField + x.magnitudeBits % Nat.pow 2 52 = x.magnitudeBits at hsplit
  split_ifs with hzero
  · rw [hzero] at hsplit ⊢
    omega
  · rw [max_eq_left (by omega)]
    change _ = _ + (2 ^ 52 + _)
    omega

/-- The least scale is that of the subnormal numbers. -/
theorem scale_ge : -1074 ≤ x.scale := by
  rw [scale]
  omega

/-- A significand has 53 bits. -/
theorem significand_lt : x.significand < 2 ^ 53 := by
  have : x.magnitudeBits % Nat.pow 2 52 < 2 ^ 52 := Nat.mod_lt _ (by decide)
  rw [significand]
  split_ifs
  · omega
  · change 2 ^ 52 + _ < _
    omega

/-- Above the least scale the significand of a number takes all its bits. -/
theorem significand_ge (h : x.scale ≠ -1074) : 2 ^ 52 ≤ x.significand := by
  have hfield : x.exponentField ≠ 0 := by
    intro hzero
    rw [scale, hzero] at h
    exact h rfl
  rw [significand, if_neg hfield]
  exact Nat.le_add_right _ _

/-- The greatest scale is that of the greatest finite numbers. -/
theorem scale_le (h : x.isFinite = true) : x.scale ≤ 971 := by
  have hlt : x.magnitudeBits < 2047 * 2 ^ 52 := of_decide_eq_true h
  have hfield : x.exponentField < 2047 := Nat.div_lt_of_lt_mul (by rwa [Nat.mul_comm] at hlt)
  rw [scale]
  omega

/-- The lower half of the interval of a number is shorter where the numbers below are closer. -/
theorem lowerQuarters_eq :
    x.lowerQuarters = if x.significand = 2 ^ 52 ∧ x.scale ≠ -1074 then 1 else 2 := by
  rw [lowerQuarters]
  refine if_congr (and_congr_right fun _ => ?_) rfl rfl
  rw [scale]
  omega

/-- The magnitude of a finite number. -/
def magnitude : ℚ := x.significand * 2 ^ x.scale

/-- The lower end of the interval of the rationals that are rounded to a finite number. -/
def lowerEnd : ℚ := (x.significand - x.lowerQuarters / 4) * 2 ^ x.scale

/-- The upper end of that interval. -/
def upperEnd : ℚ := (x.significand + 1 / 2) * 2 ^ x.scale

/-- The rationals that are rounded to the magnitude of a finite number.  The ends of their interval
are rounded to it if its significand is even. -/
def Near (r : ℚ) : Prop :=
  x.lowerEnd ≤ r ∧ r ≤ x.upperEnd ∧
    (x.significand % 2 = 1 → x.lowerEnd < r ∧ r < x.upperEnd)

/-- The magnitude as a quotient of natural numbers. -/
theorem magnitude_eq_div : x.magnitude = x.numerator / x.denominator := by
  have := scaled_div (b := 2) two_pos x.significand 1 (-x.scale)
  rw [neg_neg, Nat.one_mul, Nat.cast_one, div_one, zpow_neg, div_inv_eq_mul] at this
  exact this.symm

/-- The denominator of the magnitude of a number is not zero. -/
theorem denominator_pos : 0 < x.denominator := Nat.pow_pos two_pos

end Parts

variable {x : Binary64} {r : ℚ}

/-- The lower half of the interval of a number is no longer than the upper. -/
theorem lowerQuarters_le (x : Binary64) : x.lowerQuarters ≤ 2 := by
  rw [lowerQuarters]
  split_ifs <;> decide

/-- What is rounded to a number other than zero is at least half the least such number. -/
theorem Near.pos (h : x.Near r) (hx : x.significand ≠ 0) : (2 : ℚ) ^ (-1075 : ℤ) ≤ r := by
  have hquarters : (x.lowerQuarters : ℚ) ≤ 2 := by exact_mod_cast x.lowerQuarters_le
  have hsignificand : (1 : ℚ) ≤ x.significand := by
    exact_mod_cast Nat.one_le_iff_ne_zero.mpr hx
  calc (2 : ℚ) ^ (-1075 : ℤ) = 1 / 2 * 2 ^ (-1074 : ℤ) := by
        rw [show (-1075 : ℤ) = -1 + -1074 from rfl, zpow_add₀ two_ne_zero, zpow_neg_one, one_div]
    _ ≤ (x.significand - x.lowerQuarters / 4) * 2 ^ x.scale :=
        mul_le_mul (by linarith) (zpow_le_zpow_right₀ one_le_two x.scale_ge)
          (zpow_pos two_pos _).le (by linarith)
    _ ≤ r := h.1

/-- What is rounded to a number has no greater exponent. -/
theorem Near.lt (h : x.Near r) : r < 2 ^ (x.scale + 53) := by
  have hsignificand : (x.significand : ℚ) + 1 ≤ 2 ^ 53 := by exact_mod_cast x.significand_lt
  calc r ≤ (x.significand + 1 / 2) * 2 ^ x.scale := h.2.1
    _ < 2 ^ 53 * 2 ^ x.scale := by
        refine mul_lt_mul_of_pos_right ?_ (zpow_pos two_pos _)
        linarith
    _ = 2 ^ (x.scale + 53) := by
        rw [zpow_add₀ two_ne_zero, mul_comm]
        norm_num

/-- On the scale of a number, the integer nearest to what is rounded to it is its significand. -/
theorem Near.nearestEven (h : x.Near r) : NearestEven x.significand (r / 2 ^ x.scale) := by
  have hunit : (0 : ℚ) < 2 ^ x.scale := zpow_pos two_pos _
  have hquarters : (x.lowerQuarters : ℚ) ≤ 2 := by exact_mod_cast x.lowerQuarters_le
  obtain ⟨hlow, hhigh, hodd⟩ := h
  rw [lowerEnd, ← le_div_iff₀ hunit] at hlow
  rw [upperEnd, ← div_le_iff₀ hunit] at hhigh
  rw [lowerEnd, upperEnd, ← lt_div_iff₀ hunit, ← div_lt_iff₀ hunit] at hodd
  refine ⟨by linarith, hhigh, fun hm => ?_⟩
  obtain ⟨hlow, hhigh⟩ := hodd hm
  exact ⟨by linarith, hhigh⟩

/-- What a quotient is rounded to, if its scale and the nearest integer on it are given. -/
theorem ofRatio_eq_of_nearestEven (hnum : 0 < num) (hden : 0 < den) {q : ℤ} {m : ℕ}
    (hq : max (Int.log 2 (num / den : ℚ) - 52) (-1074) = q)
    (hm : NearestEven m (num / den / 2 ^ q)) (negative : Bool) :
    ofRatio negative num den =
      ofMagnitudeBits negative (min ((q + 1074).toNat * 2 ^ 52 + m) infinityBits) := by
  have hscaled := scaled_div (b := 2) two_pos num den q
  rw [Nat.cast_two] at hscaled
  rw [← hscaled] at hm
  have hround := (nearestEven_roundQuotient _ (Nat.mul_pos hden (Nat.pow_pos two_pos))).unique hm
  rw [ofRatio, if_neg hnum.ne', binaryExponent_eq_log hnum hden, hq, ← hround]
  rfl

/-- What is rounded to a number has the same exponent, unless it is just below a power of two.  Then
the number is that power, and the significand is doubled on the finer scale below. -/
theorem Near.scale_cases (h : x.Near r) (hx : x.significand ≠ 0) :
    max (Int.log 2 r - 52) (-1074) = x.scale ∨
      x.scale ≠ -1074 ∧ x.significand = 2 ^ 52 ∧ max (Int.log 2 r - 52) (-1074) = x.scale - 1 ∧
        NearestEven (2 ^ 53) (r / 2 ^ (x.scale - 1)) := by
  have hpos : 0 < r := lt_of_lt_of_le (zpow_pos two_pos _) (h.pos hx)
  have hunit : (0 : ℚ) < 2 ^ x.scale := zpow_pos two_pos _
  have hscale := x.scale_ge
  have hlog : Int.log 2 r < x.scale + 53 :=
    (Int.lt_zpow_iff_log_lt one_lt_two hpos).mp (by exact_mod_cast h.lt)
  have hle_log : ∀ k : ℤ, (2 : ℚ) ^ k ≤ r → k ≤ Int.log 2 r := fun k hk =>
    (Int.zpow_le_iff_le_log one_lt_two hpos).mp (by exact_mod_cast hk)
  by_cases hcase : x.scale = -1074 ∨ (2 : ℚ) ^ (x.scale + 52) ≤ r
  · left
    obtain hleast | hle := hcase
    · omega
    · have := hle_log _ hle
      omega
  · right
    obtain ⟨hleast, hlt⟩ := not_or.mp hcase
    have hscaled : r / 2 ^ x.scale < 2 ^ 52 := by
      rw [div_lt_iff₀ hunit]
      have hlt := not_le.mp hlt
      rw [zpow_add₀ two_ne_zero, mul_comm] at hlt
      exact_mod_cast hlt
    have hpower : x.significand = 2 ^ 52 := by
      have hlt : (x.significand : ℚ) < (2 ^ 52 + 1 : ℕ) := by
        have := h.nearestEven.1
        push_cast
        linarith
      have hlt : x.significand < 2 ^ 52 + 1 := by exact_mod_cast hlt
      have := x.significand_ge hleast
      omega
    have hlow : 2 ^ 52 - 1 / 4 ≤ r / 2 ^ x.scale := by
      have := h.1
      rw [lowerEnd, lowerQuarters_eq, if_pos ⟨hpower, hleast⟩, hpower, ← le_div_iff₀ hunit] at this
      exact_mod_cast this
    have hle : x.scale + 51 ≤ Int.log 2 r := by
      refine hle_log _ ?_
      rw [zpow_add₀ two_ne_zero, mul_comm, ← le_div_iff₀ hunit]
      refine le_trans ?_ hlow
      norm_num
    have hlt : Int.log 2 r < x.scale + 52 :=
      (Int.lt_zpow_iff_log_lt one_lt_two hpos).mp (by exact_mod_cast not_le.mp hlt)
    have hfiner : r / 2 ^ (x.scale - 1) = 2 * (r / 2 ^ x.scale) := by
      rw [zpow_sub_one₀ two_ne_zero]
      field_simp
    refine ⟨hleast, hpower, by omega, ?_, ?_, fun hodd => absurd hodd (by decide)⟩
    · rw [hfiner]
      push_cast
      linarith
    · rw [hfiner]
      push_cast
      linarith

/-- **A quotient in the interval of a number** is rounded to that number. -/
theorem ofRatio_eq_of_near (hfinite : x.isFinite = true) (hx : x.significand ≠ 0)
    (hden : 0 < den) (h : x.Near (num / den)) (negative : Bool) :
    ofRatio negative num den = ofMagnitudeBits negative x.magnitudeBits := by
  have hnum : 0 < num := by
    by_contra hzero
    have hpos := lt_of_lt_of_le (zpow_pos two_pos _) (h.pos hx)
    rw [Nat.eq_zero_of_not_pos hzero, Nat.cast_zero, zero_div] at hpos
    exact hpos.false
  have hbits : x.magnitudeBits ≤ infinityBits := Nat.le_of_lt (of_decide_eq_true hfinite)
  obtain hq | ⟨hleast, hpower, hq, hm⟩ := h.scale_cases hx
  · rw [ofRatio_eq_of_nearestEven hnum hden hq h.nearestEven, ← x.magnitudeBits_eq,
      min_eq_left hbits]
  · have hsame : (x.scale - 1 + 1074).toNat * 2 ^ 52 + 2 ^ 53 = x.magnitudeBits := by
      have := x.scale_ge
      rw [x.magnitudeBits_eq, hpower]
      omega
    rw [ofRatio_eq_of_nearestEven hnum hden hq hm, hsame, min_eq_left hbits]

end Binary64

end DeployPlan
