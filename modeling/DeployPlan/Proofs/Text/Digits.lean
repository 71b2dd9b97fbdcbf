import DeployPlan.Text.Blank
import Mathlib.Algebra.Group.Nat.Defs
import Mathlib.Data.List.TakeWhile
import Mathlib.Data.Nat.Log

/-!
# Decimal digits

The digits that a number is written with are read as that number.

## Main results

* `Text.natural?_of_digits` — what decimal digits are read as.
* `Text.natural?_zeros_toDigits`, `Text.natural?_toDigits_zeros` — a number is read back, also with
  zeros before its digits, and multiplied with zeros after them.
* `Text.length_toDigits_bounds` — the powers of ten around a number.
-/

set_option autoImplicit false

namespace DeployPlan

namespace Text

/-- The value of a decimal digit. -/
theorem digit?_of_isDigit {c : Char} (h : isDigit c = true) :
    digit? 10 c = some (c.toNat - 48) := by
  obtain ⟨hlow, hhigh⟩ := Bool.and_eq_true_iff.mp h
  have hhigh : c ≤ '9' := of_decide_eq_true hhigh
  have hlt : c.toNat - 48 < 10 := by
    have : c.toNat ≤ 57 := hhigh
    omega
  rw [digit?, if_pos ⟨of_decide_eq_true hlow, hhigh⟩]
  exact Option.filter_some_pos (decide_eq_true hlt)

/-- Digits that are read after others. -/
theorem foldl_digits {cs : List Char} (h : ∀ c ∈ cs, isDigit c = true) (n : Nat) :
    cs.foldl (fun acc c => do return (← acc) * 10 + (← digit? 10 c)) (some n) =
      some (Nat.ofDigitChars 10 cs n) := by
  induction cs generalizing n with
  | nil => rfl
  | cons c cs ih =>
    have hc := digit?_of_isDigit (h c List.mem_cons_self)
    rw [Nat.ofDigitChars_cons, ← ih fun d hd => h d (List.mem_cons_of_mem _ hd), List.foldl_cons,
      Nat.mul_comm]
    simp [hc]

/-- **Decimal digits** are read one after another. -/
theorem natural?_of_digits {cs : List Char} (hne : cs ≠ []) (h : ∀ c ∈ cs, isDigit c = true) :
    natural? 10 cs = some (Nat.ofDigitChars 10 cs 0) := by
  rw [natural?, if_neg (by simpa using hne)]
  exact foldl_digits h 0

/-! ## Digits of numbers -/

/-- Numbers are written with digits. -/
theorem isDigit_of_mem_toDigits {n : Nat} {c : Char} (h : c ∈ Nat.toDigits 10 n) :
    isDigit c = true :=
  Nat.isDigit_of_mem_toDigits (by decide) (by decide) h

/-- Zeros are digits. -/
theorem isDigit_of_mem_zeros {n : Nat} {c : Char} (h : c ∈ List.replicate n '0') :
    isDigit c = true := by
  rw [List.eq_of_mem_replicate h]
  rfl

/-- **A number is read back** from its digits, with more zeros before them. -/
theorem natural?_zeros_toDigits (k n : Nat) :
    natural? 10 (List.replicate k '0' ++ Nat.toDigits 10 n) = some n := by
  rw [natural?_of_digits (by simp), Nat.ofDigitChars_append, Nat.ofDigitChars_replicate_zero,
    Nat.mul_zero, Nat.ofDigitChars_ten_toDigits]
  intro c hc
  exact (List.mem_append.mp hc).elim isDigit_of_mem_zeros isDigit_of_mem_toDigits

/-- **A number is read back** from its digits. -/
theorem natural?_toDigits (n : Nat) : natural? 10 (Nat.toDigits 10 n) = some n :=
  natural?_zeros_toDigits 0 n

/-- Zeros after the digits of a number multiply it by a power of ten. -/
theorem natural?_toDigits_zeros (n k : Nat) :
    natural? 10 (Nat.toDigits 10 n ++ List.replicate k '0') = some (10 ^ k * n) := by
  rw [natural?_of_digits (by simp), Nat.ofDigitChars_append, Nat.ofDigitChars_ten_toDigits,
    Nat.ofDigitChars_replicate_zero]
  intro c hc
  exact (List.mem_append.mp hc).elim isDigit_of_mem_toDigits isDigit_of_mem_zeros

/-- The zeros that end the digits of a number tell by which power of ten it can be divided. -/
theorem pow_trailing_zeros_dvd (n : Nat) :
    10 ^ ((Nat.toDigits 10 n).reverse.takeWhile (· == '0')).length ∣ n := by
  set zeros := (Nat.toDigits 10 n).reverse.takeWhile (· == '0') with hzeros
  set front := ((Nat.toDigits 10 n).reverse.dropWhile (· == '0')).reverse with hfront
  have hreplicate : zeros = List.replicate zeros.length '0' := by
    refine List.eq_replicate_of_mem fun c hc => ?_
    rw [hzeros] at hc
    exact eq_of_beq (List.mem_takeWhile_imp (p := (· == '0')) hc)
  have hsplit : Nat.toDigits 10 n = front ++ List.replicate zeros.length '0' := calc
    Nat.toDigits 10 n = (zeros ++ front.reverse).reverse := by
      rw [hzeros, hfront, List.reverse_reverse, List.takeWhile_append_dropWhile,
        List.reverse_reverse]
    _ = front ++ zeros.reverse := by rw [List.reverse_append, List.reverse_reverse]
    _ = front ++ List.replicate zeros.length '0' := by
      refine congrArg (front ++ ·) ?_
      have := congrArg List.reverse hreplicate
      rwa [List.reverse_replicate] at this
  have hn := Nat.ofDigitChars_ten_toDigits (n := n)
  rw [hsplit, Nat.ofDigitChars_append, Nat.ofDigitChars_replicate_zero] at hn
  exact ⟨_, hn.symm⟩

/-- The number of digits of a positive number. -/
theorem length_toDigits_bounds {n : Nat} (h : 0 < n) :
    10 ^ ((Nat.toDigits 10 n).length - 1) ≤ n ∧ n < 10 ^ (Nat.toDigits 10 n).length := by
  have hlength := Nat.length_toDigits_pos (b := 10) (n := n)
  refine ⟨?_, (Nat.length_toDigits_le_iff (by decide) hlength).mp le_rfl⟩
  by_contra hlt
  by_cases hone : (Nat.toDigits 10 n).length = 1
  · rw [hone] at hlt
    omega
  · have := (Nat.length_toDigits_le_iff (by decide) (by omega)).mpr (not_le.mp hlt)
    omega

/-- The number of digits of a positive number, as a logarithm. -/
theorem length_toDigits {n : Nat} (h : 0 < n) :
    (Nat.toDigits 10 n).length = Nat.log 10 n + 1 := by
  obtain ⟨hlow, hhigh⟩ := length_toDigits_bounds h
  have hlength := Nat.length_toDigits_pos (b := 10) (n := n)
  have := Nat.log_eq_of_pow_le_of_lt_pow hlow (by rwa [Nat.sub_add_cancel hlength])
  omega

end Text

end DeployPlan
